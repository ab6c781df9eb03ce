import Punchgate.State.App
import Punchgate.State.Refinement

/-!
# Relay isolation and bounded reconnects

A tunnel to a relayed peer is spawned over the relay only after the hole punch was
retried three times. Both statements here are about the history of a run: the latest
report on the connections of a peer, and the disconnects requested since its retry
state was last cleared.
-/

namespace Punchgate

/-- An event reports that the peer was connected, or that its last connection is gone. -/
def Event.ReportsOn (p : PeerId) : Event → Prop
  | .tunnelPeerConnected q _ => q = p
  | .connectionLost q remaining => q = p ∧ remaining = 0
  | _ => False

instance (p : PeerId) : DecidablePred (Event.ReportsOn p) := fun e => by
  unfold Event.ReportsOn
  split <;> infer_instance

/-- The latest report on the connections of a peer. -/
def latestReport (p : PeerId) (events : List Event) : Option Event :=
  events.reverse.find? fun e => e.ReportsOn p

/-- One more event is the latest report if it reports on the peer at all. -/
theorem latestReport_concat (p : PeerId) (events : List Event) (e : Event) :
    latestReport p (events ++ [e]) = if e.ReportsOn p then some e else latestReport p events := by
  unfold latestReport
  rw [List.reverse_append, List.reverse_singleton, List.singleton_append, List.find?_cons]
  by_cases h : e.ReportsOn p <;> simp [h]

namespace TunnelState

/-- A failed attempt makes the tunnels that wait for the peer give up on a direct path. -/
def ExhaustsRetries (s : TunnelState) (p : PeerId) (i : Env × Event) : Prop :=
  i.2.failedAttempt.map Prod.fst = some p ∧ s.awaitingHolepunch.contains p = true ∧
    (s.transition i.1 i.2).1.awaitingHolepunch.contains p = false

/-- A step clears the retry state of a peer: a direct connection, the loss of all
connections without a requested disconnect, or the exhaustion of its retries. -/
def ClearsRetries (s : TunnelState) (p : PeerId) (i : Env × Event) : Prop :=
  i.2 = .tunnelPeerConnected p false ∨
    (i.2 = .connectionLost p 0 ∧ p ∉ s.pendingRetryRedial) ∨ s.ExhaustsRetries p i

instance (s : TunnelState) (p : PeerId) (i : Env × Event) : Decidable (s.ClearsRetries p i) :=
  inferInstanceAs (Decidable (_ ∨ (_ ∧ _) ∨ (_ ∧ _ ∧ _)))

/-- Count the disconnects requested for a peer since its retry state was last cleared. -/
def countRetries (p : PeerId) (count : ℕ) (s : TunnelState) (i : Env × Event)
    (cs : List Command) : ℕ :=
  (if s.ClearsRetries p i then 0 else count) + cs.count (.disconnectPeer p)

/-- The disconnects requested for a peer in a run since its retry state was last cleared. -/
def scheduledRetries (p : PeerId) (s : TunnelState) (inputs : List (Env × Event)) : ℕ :=
  ((machine.withGhost (countRetries p)).after (s, 0) inputs).2

/-- The session of a peer is punching for the given attempt. -/
def PunchingFor (s : TunnelState) (p : PeerId) (attemptId : ℕ) : Prop :=
  ∃ session, s.holepunchSessions.get? p = some session ∧ session.attemptId = attemptId ∧
    session.phase = .punching

/-- The view shows for which attempt the session is punching. -/
theorem punchingFor_iff {s : TunnelState} {p : PeerId} {attemptId : ℕ} :
    s.PunchingFor p attemptId ↔ (s.view p).Current attemptId := by
  constructor
  · rintro ⟨session, hget, rfl, hphase⟩
    refine ⟨session.dialRetryDispatched, ?_⟩
    rw [view_session hget, HolePunchSession.view, hphase]
  · rintro ⟨dispatched, hview⟩
    cases hget : s.holepunchSessions.get? p with
    | none => simp [view, hget] at hview
    | some session =>
      rw [view_session hget, Option.some.injEq] at hview
      exact ⟨session, hget, congrArg SessionView.attemptId hview,
        congrArg SessionView.phase hview⟩

end TunnelState

/-! ## One step -/

section Step

variable {s : TunnelState} {p : PeerId} {e : Event} {v : PeerView} {cs : List Command}

/-- After a step the flag of a relayed peer shows the report of this step, if it is one,
and is unchanged otherwise. -/
theorem PeerStep.relayed_eq (h : PeerStep s p e v cs) :
    v.relayed = if e.ReportsOn p then decide (e = .tunnelPeerConnected p true)
      else (s.view p).relayed := by
  have hfailed {attemptId : ℕ} (he : e.failedAttempt = some (p, attemptId)) :
      ¬e.ReportsOn p := by
    cases e <;> simp_all [Event.failedAttempt, Event.ReportsOn]
  have hroute (v : PeerView) (specs : List Intent) : (v.route p specs).1.relayed = v.relayed := by
    unfold PeerView.route
    split <;> rfl
  cases h with
  | idle hsubject =>
    have hreports : ¬e.ReportsOn p := by
      intro hreports
      cases e <;> simp_all [Event.ReportsOn, Event.subject]
    rw [if_neg hreports]
  | resolvedConnected | lookedUpConnected =>
    rw [hroute]
    simp [Event.ReportsOn]
  | failureIgnored he | retryScheduled he => rw [if_neg (hfailed he)]
  | retriesExhausted he =>
    rw [if_neg (hfailed he)]
    rfl
  | relayed | relayedQueued | direct | lostRedial | lostAwaiting | lost =>
    simp [Event.ReportsOn, PeerView.queue, PeerView.connectDirect, PeerView.clear,
      PeerView.assign]
  | lostOne hremaining => simp [Event.ReportsOn, hremaining]
  | _ => simp [Event.ReportsOn, PeerView.assign]

/-- An event clears the retry state of a peer whose view becomes `v`. -/
def PeerStep.Clears (s : TunnelState) (p : PeerId) (e : Event) (v : PeerView) : Prop :=
  e = .tunnelPeerConnected p false ∨ (e = .connectionLost p 0 ∧ (s.view p).redial = false) ∨
    (e.failedAttempt.map Prod.fst = some p ∧ (s.view p).awaiting.isSome = true ∧
      v.awaiting.isSome = false)

/-- The stored number of retries starts over with a clearing and otherwise grows with
every requested disconnect. -/
theorem PeerStep.retries_eq (h : PeerStep s p e v cs) :
    (PeerStep.Clears s p e v → v.retries.getD 0 = cs.count (.disconnectPeer p)) ∧
    (¬PeerStep.Clears s p e v →
      v.retries.getD 0 = (s.view p).retries.getD 0 + cs.count (.disconnectPeer p)) := by
  have hspawn (specs : List Intent) : (spawnTunnels p specs).count (.disconnectPeer p) = 0 := by
    rw [List.count_eq_zero]
    intro hmem
    obtain ⟨spec, _, heq⟩ := List.mem_map.mp hmem
    cases heq
  have hdial {c : Command} (hc : c.dials p = true) : [c].count (.disconnectPeer p) = 0 := by
    rw [List.count_eq_zero]
    intro hmem
    rw [← List.mem_singleton.mp hmem] at hc
    cases hc
  have hroute (v : PeerView) (specs : List Intent) : (v.route p specs).1.retries = v.retries ∧
      (v.route p specs).2.count (.disconnectPeer p) = 0 := by
    unfold PeerView.route
    split
    · exact ⟨rfl, rfl⟩
    · exact ⟨rfl, hspawn specs⟩
  have hfailed {attemptId : ℕ} (he : e.failedAttempt = some (p, attemptId)) :
      e ≠ .tunnelPeerConnected p false ∧ e ≠ .connectionLost p 0 := by
    constructor <;> (rintro rfl; cases he)
  have hkept (hclears : ¬PeerStep.Clears s p e v)
      (hretries : v.retries.getD 0 = (s.view p).retries.getD 0 + cs.count (.disconnectPeer p)) :
      (PeerStep.Clears s p e v → v.retries.getD 0 = cs.count (.disconnectPeer p)) ∧
      (¬PeerStep.Clears s p e v →
        v.retries.getD 0 = (s.view p).retries.getD 0 + cs.count (.disconnectPeer p)) :=
    ⟨fun h => absurd h hclears, fun _ => hretries⟩
  have hcleared (hclears : PeerStep.Clears s p e v)
      (hretries : v.retries.getD 0 = cs.count (.disconnectPeer p)) :
      (PeerStep.Clears s p e v → v.retries.getD 0 = cs.count (.disconnectPeer p)) ∧
      (¬PeerStep.Clears s p e v →
        v.retries.getD 0 = (s.view p).retries.getD 0 + cs.count (.disconnectPeer p)) :=
    ⟨fun _ => hretries, fun h => absurd hclears h⟩
  cases h with
  | idle hsubject =>
    refine hkept ?_ rfl
    rintro (rfl | ⟨rfl, _⟩ | ⟨hpeer, _, _⟩)
    · exact hsubject rfl
    · exact hsubject rfl
    · obtain ⟨⟨q, attemptId⟩, he, rfl⟩ := Option.map_eq_some_iff.mp hpeer
      exact hsubject (Event.subject_of_failedAttempt he)
  | resolvedConnected | lookedUpConnected =>
    refine hkept (by simp [PeerStep.Clears, Event.failedAttempt]) ?_
    rw [(hroute _ _).1, (hroute _ _).2]
    rfl
  | lookedUp =>
    refine hkept (by simp [PeerStep.Clears, Event.failedAttempt]) ?_
    split <;> simp
  | dialFailedRetried _ _ _ _ hc =>
    refine hkept (by simp [PeerStep.Clears, Event.failedAttempt]) ?_
    rw [hdial hc]
    rfl
  | direct =>
    refine hcleared (Or.inl rfl) ?_
    rw [hspawn]
    rfl
  | failureIgnored he =>
    refine hkept ?_ rfl
    rintro (heq | ⟨heq, _⟩ | ⟨_, hsome, hnone⟩)
    · exact (hfailed he).1 heq
    · exact (hfailed he).2 heq
    · rw [hsome] at hnone
      cases hnone
  | retriesExhausted he _ hawaiting =>
    refine hcleared (Or.inr (Or.inr ⟨by rw [he]; rfl, by rw [hawaiting]; rfl, rfl⟩)) ?_
    rw [hspawn]
    rfl
  | retryScheduled he _ hawaiting =>
    refine hkept ?_ (by simp)
    rintro (heq | ⟨heq, _⟩ | ⟨_, _, hnone⟩)
    · exact (hfailed he).1 heq
    · exact (hfailed he).2 heq
    · rw [hawaiting] at hnone
      cases hnone
  | lostOne hremaining =>
    exact hkept (by simp [PeerStep.Clears, Event.failedAttempt, hremaining]) rfl
  | lostRedial hredial hc =>
    refine hkept (by simp [PeerStep.Clears, Event.failedAttempt, hredial]) ?_
    rw [hdial hc]
    rfl
  | lostAwaiting hredial =>
    refine hcleared (Or.inr (Or.inl ⟨rfl, hredial⟩)) ?_
    simp [PeerView.assign, PeerView.clear]
  | lost hredial => exact hcleared (Or.inr (Or.inl ⟨rfl, hredial⟩)) rfl
  | _ => exact hkept (by simp [PeerStep.Clears, Event.failedAttempt]) rfl

/-- The stored number of retries never exceeds the limit. -/
theorem PeerStep.retries_le (h : PeerStep s p e v cs)
    (hle : (s.view p).retries.getD 0 ≤ maxRelayReconnectRetries) :
    v.retries.getD 0 ≤ maxRelayReconnectRetries := by
  have hroute (v : PeerView) (specs : List Intent) : (v.route p specs).1.retries = v.retries := by
    unfold PeerView.route
    split <;> rfl
  cases h with
  | resolvedConnected | lookedUpConnected =>
    rw [hroute]
    exact hle
  | retryScheduled _ _ _ hlt =>
    simp only [Option.getD_some]
    omega
  | direct | retriesExhausted | lostAwaiting | lost => exact Nat.zero_le _
  | _ => exact hle

/-- A tunnel is spawned when the peer is not relayed after the step, or after the last
retry of its hole punch. -/
theorem PeerStep.spawn_cases {svc : ServiceName} {bind : ServiceAddr} (h : PeerStep s p e v cs)
    (hspawn : .spawnTunnel p svc bind ∈ cs) :
    v.relayed = false ∨ ∃ attemptId, e.failedAttempt = some (p, attemptId) ∧
      (s.view p).Current attemptId ∧
      maxRelayReconnectRetries ≤ (s.view p).retries.getD 0 := by
  have hroute {v : PeerView} {specs : List Intent}
      (h : .spawnTunnel p svc bind ∈ (v.route p specs).2) :
      (v.route p specs).1.relayed = false := by
    unfold PeerView.route at h ⊢
    split
    · rename_i hrelayed
      rw [if_pos hrelayed] at h
      cases h
    · rename_i hrelayed
      exact Bool.eq_false_iff.mpr hrelayed
  cases h with
  | resolvedConnected | lookedUpConnected => exact Or.inl (hroute hspawn)
  | lookedUp => split at hspawn <;> simp at hspawn
  | dialFailedRetried _ _ _ _ hc | lostRedial _ hc =>
    rw [← List.mem_singleton.mp hspawn] at hc
    cases hc
  | direct => exact Or.inl rfl
  | retriesExhausted he hcurrent _ hretries => exact Or.inr ⟨_, he, hcurrent, hretries⟩
  | retryScheduled => simp at hspawn
  | lostAwaiting => simp at hspawn
  | _ => cases hspawn

end Step

/-! ## Runs -/

namespace TunnelState

variable {p : PeerId}

/-- Configuration requests intents and sets the NAT mapping, nothing else. -/
theorem configured_frame (calls : List ConfigCall) :
    ∃ pending byService natMapping, configured calls =
      { new with
        pendingByPeer := pending, pendingByService := byService, natMapping := natMapping } := by
  refine List.foldlRecOn (motive := fun s => ∃ pending byService natMapping, s =
    { new with
      pendingByPeer := pending, pendingByService := byService, natMapping := natMapping })
    calls ConfigCall.apply ⟨∅, ∅, .unknown, rfl⟩ ?_
  rintro _ ⟨pending, byService, natMapping, rfl⟩ call _
  cases call with
  | addPeerTunnel q svc bind => exact ⟨_, _, _, rfl⟩
  | addServiceTunnel svc bind => exact ⟨_, _, _, rfl⟩
  | setNatMapping mapping => exact ⟨_, _, _, rfl⟩

/-- A configured machine knows nothing of a peer but its pending intents. -/
theorem configured_view (calls : List ConfigCall) (p : PeerId) :
    ∃ pending, (configured calls).view p = ⟨pending, none, false, none, false, none⟩ := by
  obtain ⟨pending, byService, natMapping, heq⟩ := configured_frame calls
  refine ⟨pending.get? p, ?_⟩
  rw [heq]
  rfl

/-- Clearing the retry state is a matter of the views of the peer. -/
theorem clearsRetries_iff {s : TunnelState} {i : Env × Event} :
    s.ClearsRetries p i ↔ PeerStep.Clears s p i.2 ((s.transition i.1 i.2).1.view p) := by
  have hredial : (s.view p).redial = false ↔ p ∉ s.pendingRetryRedial := decide_eq_false_iff_not
  unfold ClearsRetries ExhaustsRetries PeerStep.Clears
  rw [hredial]
  rfl

/-- The flag of a relayed peer shows the latest report of the run. -/
theorem relayed_eq_latestReport (calls : List ConfigCall) (inputs : List (Env × Event)) :
    ((machine.after (configured calls) inputs).view p).relayed =
      decide (latestReport p (inputs.map Prod.snd) = some (.tunnelPeerConnected p true)) := by
  induction inputs using List.reverseRecOn with
  | nil =>
    obtain ⟨pending, hview⟩ := configured_view calls p
    simp [hview, latestReport]
  | append_singleton inputs i ih =>
    have hstep := ((machine.after (configured calls) inputs).transition_refines i.1 p i.2).relayed_eq
    rw [Mealy.Machine.after_concat, List.map_append, List.map_singleton, latestReport_concat]
    refine hstep.trans ?_
    rw [ih]
    by_cases hreports : i.2.ReportsOn p
    · rw [if_pos hreports, if_pos hreports]
      simp only [Option.some.injEq]
    · rw [if_neg hreports, if_neg hreports]

/-- The stored number of retries is the number of disconnects requested since the last
clearing, and at most three. -/
theorem retries_eq_scheduled (calls : List ConfigCall) (inputs : List (Env × Event)) :
    ((machine.after (configured calls) inputs).view p).retries.getD 0 =
        scheduledRetries p (configured calls) inputs ∧
      ((machine.after (configured calls) inputs).view p).retries.getD 0 ≤
        maxRelayReconnectRetries := by
  induction inputs using List.reverseRecOn with
  | nil =>
    obtain ⟨pending, hview⟩ := configured_view calls p
    rw [Mealy.Machine.after_nil, hview]
    exact ⟨rfl, Nat.zero_le _⟩
  | append_singleton inputs i ih =>
    obtain ⟨heq, hle⟩ := ih
    have hrefines := (machine.after (configured calls) inputs).transition_refines i.1 p i.2
    have hghost : scheduledRetries p (configured calls) (inputs ++ [i]) =
        countRetries p (scheduledRetries p (configured calls) inputs)
          (machine.after (configured calls) inputs) i
          ((machine.after (configured calls) inputs).transition i.1 i.2).2 := by
      unfold scheduledRetries
      rw [Mealy.Machine.after_concat, Mealy.Machine.withGhost_step,
        Mealy.Machine.after_withGhost_fst]
      rfl
    have hcount : (commandsFor p
          ((machine.after (configured calls) inputs).transition i.1 i.2).2).count
          (.disconnectPeer p) =
        ((machine.after (configured calls) inputs).transition i.1 i.2).2.count
          (.disconnectPeer p) :=
      List.count_filter (by simp [Command.target])
    rw [Mealy.Machine.after_concat]
    refine ⟨?_, hrefines.retries_le hle⟩
    rw [hghost, countRetries, ← hcount, ← heq]
    by_cases hclears : (machine.after (configured calls) inputs).ClearsRetries p i
    · rw [if_pos hclears, zero_add]
      exact hrefines.retries_eq.1 (clearsRetries_iff.mp hclears)
    · rw [if_neg hclears]
      exact hrefines.retries_eq.2 fun h => hclears (clearsRetries_iff.mpr h)

/-- **Relay isolation.** Whenever a tunnel to a peer is spawned, either the latest report
on its connections is not a relayed connection, or its current hole-punch attempt has
just failed after exactly three retries. -/
theorem spawn_not_relayed_or_exhausted (calls : List ConfigCall) (inputs : List (Env × Event))
    (i : Env × Event) {svc : ServiceName} {bind : ServiceAddr}
    (hspawn : .spawnTunnel p svc bind ∈ (machine.step (machine.after (configured calls) inputs) i).2) :
    latestReport p ((inputs ++ [i]).map Prod.snd) ≠ some (.tunnelPeerConnected p true) ∨
      ∃ attemptId, i.2.failedAttempt = some (p, attemptId) ∧
        (machine.after (configured calls) inputs).PunchingFor p attemptId ∧
        scheduledRetries p (configured calls) inputs = 3 := by
  have hrefines := (machine.after (configured calls) inputs).transition_refines i.1 p i.2
  obtain ⟨hretries, hle⟩ := retries_eq_scheduled (p := p) calls inputs
  rcases hrefines.spawn_cases ((mem_commandsFor rfl).mpr hspawn) with
    hrelayed | ⟨attemptId, he, hcurrent, hexhausted⟩
  · left
    have hlatest := relayed_eq_latestReport (p := p) calls (inputs ++ [i])
    rw [Mealy.Machine.after_concat] at hlatest
    exact decide_eq_false_iff_not.mp (hlatest.symm.trans hrelayed)
  · right
    refine ⟨attemptId, he, punchingFor_iff.mpr hcurrent, ?_⟩
    rw [← hretries]
    exact le_antisymm hle hexhausted

/-- A tunnel spawned over a direct connection after a relayed one. -/
theorem spawn_not_relayed_or_exhausted_direct :
    .spawnTunnel ⟨1⟩ webIntent.1 webIntent.2 ∈
        (machine.step (machine.after (configured [webTunnel])
          [(Env.sorted, .tunnelPeerConnected ⟨1⟩ true)])
          (Env.sorted, .tunnelPeerConnected ⟨1⟩ false)).2 ∧
      (latestReport ⟨1⟩ ([(Env.sorted, Event.tunnelPeerConnected ⟨1⟩ true),
          (Env.sorted, .tunnelPeerConnected ⟨1⟩ false)].map Prod.snd) ≠
          some (.tunnelPeerConnected ⟨1⟩ true) ∨
        ∃ attemptId, (Event.tunnelPeerConnected ⟨1⟩ false).failedAttempt = some (⟨1⟩, attemptId) ∧
          (machine.after (configured [webTunnel])
            [(Env.sorted, .tunnelPeerConnected ⟨1⟩ true)]).PunchingFor ⟨1⟩ attemptId ∧
          scheduledRetries ⟨1⟩ (configured [webTunnel])
            [(Env.sorted, .tunnelPeerConnected ⟨1⟩ true)] = 3) := by
  have hspawn : .spawnTunnel ⟨1⟩ webIntent.1 webIntent.2 ∈
      (machine.step (machine.after (configured [webTunnel])
        [(Env.sorted, .tunnelPeerConnected ⟨1⟩ true)])
        (Env.sorted, .tunnelPeerConnected ⟨1⟩ false)).2 := by decide
  exact ⟨hspawn, spawn_not_relayed_or_exhausted [webTunnel]
    [(Env.sorted, .tunnelPeerConnected ⟨1⟩ true)] (Env.sorted, .tunnelPeerConnected ⟨1⟩ false)
    hspawn⟩

/-- A failed attempt is handled by the retry branch. -/
theorem transition_of_failedAttempt {s : TunnelState} {e : Event} {attemptId : ℕ} (env : Env)
    (he : e.failedAttempt = some (p, attemptId)) :
    s.transition env e = s.retryHolepunchAttempt p attemptId := by
  cases e with
  | holePunchAttemptFailed q a reason =>
    obtain ⟨rfl, rfl⟩ := Prod.mk.inj (Option.some.inj he)
    rfl
  | holePunchAttemptTimeout q a =>
    obtain ⟨rfl, rfl⟩ := Prod.mk.inj (Option.some.inj he)
    rfl
  | _ => cases he

/-- **Bounded reconnects, then fallback.** At most three disconnects of a peer are
requested between two clearings of its retry state. After three, the failure of its
current attempt spawns every waiting tunnel in order, and nothing of the hole punch is
left. -/
theorem reconnects_bounded_then_fallback (calls : List ConfigCall)
    (inputs : List (Env × Event)) (p : PeerId) :
    scheduledRetries p (configured calls) inputs ≤ 3 ∧
      ∀ (i : Env × Event) (attemptId : ℕ) (specs : List Intent),
        scheduledRetries p (configured calls) inputs = 3 →
        i.2.failedAttempt = some (p, attemptId) →
        (machine.after (configured calls) inputs).PunchingFor p attemptId →
        (machine.after (configured calls) inputs).awaitingHolepunch.get? p = some specs →
        (machine.step (machine.after (configured calls) inputs) i).2 = spawnTunnels p specs ∧
          (machine.step (machine.after (configured calls) inputs) i).1.awaitingHolepunch.contains p
            = false ∧
          (machine.step (machine.after (configured calls) inputs) i).1.holepunchRetryAttempts.contains
            p = false ∧
          p ∉ (machine.step (machine.after (configured calls) inputs) i).1.pendingRetryRedial ∧
          (machine.step (machine.after (configured calls) inputs) i).1.holepunchSessions.contains p
            = false := by
  obtain ⟨hretries, hle⟩ := retries_eq_scheduled (p := p) calls inputs
  refine ⟨hretries ▸ hle, fun i attemptId specs hthree he hpunching hawaiting => ?_⟩
  have hstep : machine.step (machine.after (configured calls) inputs) i =
      (machine.after (configured calls) inputs).retryHolepunchAttempt p attemptId :=
    transition_of_failedAttempt i.1 he
  rw [hstep]
  rcases (machine.after (configured calls) inputs).retryHolepunchAttempt_cases p attemptId with
    ⟨hignored | hnone, _⟩ | ⟨specs', _, hspecs, _, heq⟩ | ⟨_, _, _, _, hlt, _⟩
  · exact absurd (punchingFor_iff.mp hpunching) hignored
  · have hsome : ((machine.after (configured calls) inputs).view p).awaiting = some specs :=
      hawaiting
    rw [hnone] at hsome
    cases hsome
  · have hsame : specs' = specs := Option.some.inj (hspecs.symm.trans hawaiting)
    rw [heq, hsame]
    refine ⟨rfl, ?_, ?_, ?_, ?_⟩
    · simp [clearRetryState]
    · simp [clearRetryState]
    · simp [clearRetryState]
    · simp [clearRetryState]
  · rw [hretries, hthree] at hlt
    exact absurd hlt (lt_irrefl 3)

/-- Three attempts with a relayed reconnect in between, and the start of a fourth one. -/
def threeRetries : List (Env × Event) :=
  (Env.sorted, .tunnelPeerConnected ⟨1⟩ true) ::
    [1, 2, 3].flatMap (fun attemptId =>
      [(Env.sorted, .holePunchAttemptStarted ⟨1⟩ attemptId),
        (Env.sorted, .holePunchAttemptTimeout ⟨1⟩ attemptId),
        (Env.sorted, .connectionLost ⟨1⟩ 0),
        (Env.sorted, .tunnelPeerConnected ⟨1⟩ true)]) ++
    [(Env.sorted, .holePunchAttemptStarted ⟨1⟩ 4)]

/-- When the fourth attempt fails too, the tunnel falls back to the relay. -/
theorem reconnects_bounded_then_fallback_fourth :
    (machine.step (machine.after (configured [webTunnel]) threeRetries)
        (Env.sorted, .holePunchAttemptFailed ⟨1⟩ 4 "no direct path")).2 =
      spawnTunnels ⟨1⟩ [webIntent] := by
  have hpunching : (machine.after (configured [webTunnel]) threeRetries).PunchingFor ⟨1⟩ 4 :=
    ⟨⟨4, .punching, [], [], false⟩, by decide, rfl, rfl⟩
  exact ((reconnects_bounded_then_fallback [webTunnel] threeRetries ⟨1⟩).2
    (Env.sorted, .holePunchAttemptFailed ⟨1⟩ 4 "no direct path") 4 _ (by decide) rfl hpunching
    (by decide)).1

end TunnelState

end Punchgate
