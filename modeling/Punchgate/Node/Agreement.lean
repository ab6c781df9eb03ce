import Punchgate.Node.Pass
import Punchgate.State.Retries

/-!
# The two records of an attempt

The connection bookkeeping keeps the active attempt of a peer, the tunnel machine its
hole-punch session. The two are created and destroyed by different events. They agree
whenever both exist, a failed attempt is never one of another session, and a session
waits for a disconnect exactly while a redial is pending.
-/

namespace Punchgate

/-- The active attempt of a peer and its session, when both exist, have the same id. -/
def IdsAgree (c : ConnectionStateMachine) (t : TunnelState) (p : PeerId) : Prop :=
  ∀ stats ∈ c.activeAttemptStats p, ∀ session ∈ t.holepunchSessions.get? p,
    stats.attemptId = session.attemptId

instance (c : ConnectionStateMachine) (t : TunnelState) (p : PeerId) :
    Decidable (IdsAgree c t p) :=
  inferInstanceAs (Decidable (∀ stats ∈ c.activeAttemptStats p,
    ∀ session ∈ t.holepunchSessions.get? p, stats.attemptId = session.attemptId))

/-- The session of a peer waits for a disconnect exactly while a redial is pending. -/
def TunnelState.PhaseMatchesRedial (t : TunnelState) (p : PeerId) : Prop :=
  (∃ session, t.holepunchSessions.get? p = some session ∧ session.phase = .waitingDisconnect) ↔
    p ∈ t.pendingRetryRedial

/-- `retry_holepunch_attempt` takes its branch for a stale attempt. -/
def TunnelState.TakesStaleBranch (t : TunnelState) (p : PeerId) (attemptId : ℕ) : Prop :=
  ∃ session, t.holepunchSessions.get? p = some session ∧ session.attemptId ≠ attemptId

/-! ## One step of a view -/

section Step

variable {s : TunnelState} {p : PeerId} {e : Event} {v : PeerView} {cs : List Command}

/-- Routing changes neither the session nor a pending redial. -/
theorem PeerView.route_frame (p : PeerId) (v : PeerView) (specs : List Intent) :
    (v.route p specs).1.session = v.session ∧ (v.route p specs).1.redial = v.redial := by
  unfold route
  split <;> exact ⟨rfl, rfl⟩

/-- Only a new attempt gives a session another id. -/
theorem PeerStep.attemptId_eq (h : PeerStep s p e v cs)
    (hstart : ∀ a, e ≠ .holePunchAttemptStarted p a) {session : SessionView}
    (hsession : v.session = some session) :
    ∃ before, (s.view p).session = some before ∧ before.attemptId = session.attemptId := by
  cases h with
  | resolvedConnected =>
    rw [(PeerView.route_frame _ _ _).1] at hsession
    exact ⟨session, hsession, rfl⟩
  | lookedUpConnected =>
    rw [(PeerView.route_frame _ _ _).1] at hsession
    exact ⟨session, hsession, rfl⟩
  | dialFailedRetried _ _ hbefore =>
    cases hsession
    exact ⟨_, hbefore, rfl⟩
  | identified =>
    obtain ⟨before, hbefore, rfl⟩ := Option.map_eq_some_iff.mp hsession
    exact ⟨before, hbefore, rfl⟩
  | started => exact absurd rfl (hstart _)
  | retryScheduled _ hbefore =>
    cases hsession
    exact ⟨_, hbefore, rfl⟩
  | lostRedial =>
    obtain ⟨before, hbefore, rfl⟩ := Option.map_eq_some_iff.mp hsession
    exact ⟨before, hbefore, rfl⟩
  | direct => cases hsession
  | retriesExhausted => cases hsession
  | lostAwaiting => cases hsession
  | lost => cases hsession
  | _ => exact ⟨session, hsession, rfl⟩

/-- A redial is only scheduled by the failure of an attempt. -/
theorem PeerStep.redial_of (h : PeerStep s p e v cs) (hredial : v.redial = true) :
    (s.view p).redial = true ∨ ∃ a, e.failedAttempt = some (p, a) := by
  cases h with
  | resolvedConnected =>
    rw [(PeerView.route_frame _ _ _).2] at hredial
    exact Or.inl hredial
  | lookedUpConnected =>
    rw [(PeerView.route_frame _ _ _).2] at hredial
    exact Or.inl hredial
  | retryScheduled he => exact Or.inr ⟨_, he⟩
  | lostRedial => cases hredial
  | direct => cases hredial
  | retriesExhausted => cases hredial
  | lostAwaiting => cases hredial
  | lost => cases hredial
  | _ => exact Or.inl hredial

/-- The session of a view waits for a disconnect. -/
def PeerView.waitsForDisconnect (v : PeerView) : Prop :=
  ∃ session, v.session = some session ∧ session.phase = .waitingDisconnect

/-- The wait for a disconnect and the pending redial begin and end together. -/
theorem PeerStep.redial_iff (h : PeerStep s p e v cs)
    (hstart : ∀ a, e ≠ .holePunchAttemptStarted p a)
    (hiff : (s.view p).redial = true ↔ (s.view p).waitsForDisconnect) :
    v.redial = true ↔ v.waitsForDisconnect := by
  cases h with
  | resolvedConnected =>
    unfold PeerView.waitsForDisconnect
    rw [(PeerView.route_frame _ _ _).1, (PeerView.route_frame _ _ _).2]
    exact hiff
  | lookedUpConnected =>
    unfold PeerView.waitsForDisconnect
    rw [(PeerView.route_frame _ _ _).1, (PeerView.route_frame _ _ _).2]
    exact hiff
  | @dialFailedRetried _ session _ _ _ hbefore hsuppressed =>
    refine iff_of_false (fun hredial => ?_) ?_
    · obtain ⟨before, heq, hphase⟩ := hiff.mp hredial
      rw [hbefore] at heq
      cases heq
      exact hsuppressed (Or.inl hphase)
    · rintro ⟨after, heq, hphase⟩
      cases heq
      exact hsuppressed (Or.inl hphase)
  | identified =>
    refine hiff.trans ⟨?_, ?_⟩
    · rintro ⟨before, heq, hphase⟩
      exact ⟨_, congrArg (Option.map _) heq, hphase⟩
    · rintro ⟨after, heq, hphase⟩
      obtain ⟨before, hbefore, rfl⟩ := Option.map_eq_some_iff.mp heq
      exact ⟨before, hbefore, hphase⟩
  | started => exact absurd rfl (hstart _)
  | retryScheduled => exact iff_of_true rfl ⟨_, rfl, rfl⟩
  | lostRedial =>
    refine iff_of_false (fun hredial => by cases hredial) ?_
    rintro ⟨after, heq, hphase⟩
    obtain ⟨before, _, rfl⟩ := Option.map_eq_some_iff.mp heq
    cases hphase
  | direct => exact iff_of_false (fun h => by cases h) fun ⟨_, h, _⟩ => by cases h
  | retriesExhausted => exact iff_of_false (fun h => by cases h) fun ⟨_, h, _⟩ => by cases h
  | lostAwaiting => exact iff_of_false (fun h => by cases h) fun ⟨_, h, _⟩ => by cases h
  | lost => exact iff_of_false (fun h => by cases h) fun ⟨_, h, _⟩ => by cases h
  | _ => exact hiff

end Step

/-! ## The invariant of a slice -/

/-- What is true of a peer's slice whenever an event is delivered. -/
structure Agree (x : PeerSlice) : Prop where
  /-- The attempt and the session have the same id. -/
  ids : ∀ a session, x.link.attempt = some a → x.view.session = some session →
    session.attemptId = a
  /-- The session waits for a disconnect while a redial is pending. -/
  redial : x.view.redial = true ↔ x.view.waitsForDisconnect
  /-- A deadline belongs to the active attempt. -/
  deadline : ∀ a, x.link.deadline = some a → x.link.attempt = some a
  /-- There is no attempt while a direct connection is tracked. -/
  direct : x.link.direct.isSome = true → x.link.attempt = none
  /-- A relayed-only peer to be redialed has an attempt. -/
  armed : x.view.redial = true → x.link.relayOnly = true → x.link.attempt.isSome = true

/-- What is true of a peer's slice between the passes. -/
structure Settled (x : PeerSlice) : Prop extends Agree x where
  /-- A peer to be redialed has an attempt. -/
  attempt : x.view.redial = true → x.link.attempt.isSome = true

variable {p : PeerId} {e : Event} {x y z : PeerSlice}

/-- Telling anything but a new attempt keeps the agreement. -/
theorem Agree.told (h : Agree x) (htold : x.Told p e y)
    (hstart : ∀ a, e ≠ .holePunchAttemptStarted p a) : Agree y := by
  cases htold with
  | intro hview hfailed hstep =>
    have hredial := hstep.redial_iff hstart (by rw [hview]; exact h.redial)
    refine ⟨fun a session ha hsession => ?_, hredial, h.deadline, h.direct, fun hpending hrelay => ?_⟩
    · obtain ⟨before, hbefore, hid⟩ := hstep.attemptId_eq hstart hsession
      rw [hview] at hbefore
      exact hid.symm.trans (h.ids a before ha hbefore)
    · rcases hstep.redial_of hpending with hbefore | ⟨a, ha⟩
      · rw [hview] at hbefore
        exact h.armed hbefore hrelay
      · rw [hfailed a ha]
        rfl

/-- Arming keeps the agreement. -/
theorem Agree.begin (h : Agree x) (harm : x.Armable) (a : ℕ) : Agree (x.begin a) := by
  have hredial : ¬x.view.redial = true := fun hredial => by
    have hattempt := h.armed hredial harm.1.1
    rw [harm.1.2] at hattempt
    cases hattempt
  refine ⟨fun b session hb hsession => ?_, iff_of_false hredial ?_, fun b hb => hb, fun hdirect => ?_,
    fun _ _ => rfl⟩
  · cases hb
    cases hsession
    rfl
  · rintro ⟨session, hsession, hphase⟩
    cases hsession
    cases hphase
  · have hrelay := harm.1.1
    simp only [PeerLink.relayOnly, Bool.and_eq_true, Bool.not_eq_true'] at hrelay
    have hnone : (x.begin a).link.direct.isSome = false := hrelay.2
    rw [hnone] at hdirect
    cases hdirect

/-- Arming keeps the agreement, whether or not an attempt is due. -/
theorem Agree.armed_of (h : Agree x) (harmed : x.Armed y) : Agree y := by
  cases harmed with
  | unchanged => exact h
  | begun a harm => exact h.begin harm a

/-- Telling anything but a new attempt to a settled slice settles it. -/
theorem Settled.told (h : Settled x) (htold : x.Told p e y)
    (hstart : ∀ a, e ≠ .holePunchAttemptStarted p a) : Settled y := by
  refine ⟨h.toAgree.told htold hstart, fun hpending => ?_⟩
  cases htold with
  | intro hview hfailed hstep =>
    rcases hstep.redial_of hpending with hbefore | ⟨a, ha⟩
    · rw [hview] at hbefore
      exact h.attempt hbefore
    · rw [hfailed a ha]
      rfl

/-- Arming settles a slice. -/
theorem Settled.armed_of (h : Settled x) (harmed : x.Armed y) : Settled y := by
  cases harmed with
  | unchanged => exact h
  | begun a harm => exact ⟨h.toAgree.begin harm a, fun _ => rfl⟩

/-- A new relayed connection keeps a slice settled. -/
theorem Settled.openRelayed (h : Settled x) (id : ConnectionId) :
    Settled ⟨x.link.openRelayed id, x.view⟩ :=
  ⟨⟨h.ids, h.redial, h.deadline, h.direct, fun hpending _ => h.attempt hpending⟩, h.attempt⟩

/-- A new direct connection keeps the agreement. -/
theorem Agree.openDirect (h : Agree x) (id : ConnectionId) :
    Agree ⟨x.link.openDirect id, x.view⟩ :=
  ⟨fun _ _ ha => (by cases ha), h.redial, fun _ ha => (by cases ha), fun _ => rfl,
    fun _ hrelay => by cases hrelay⟩

/-- Closing a connection either ends the attempt, with the last connection, or keeps it. -/
theorem PeerLink.close_cases (l : PeerLink) (id : ConnectionId) (num : UInt32) :
    ((l.close id num).untracked = true ∧ (l.close id num).attempt = none ∧
      (l.close id num).deadline = none) ∨
    ((l.close id num).attempt = l.attempt ∧ (l.close id num).deadline = l.deadline) := by
  unfold close
  split
  · rename_i h
    exact Or.inl ⟨h.2, rfl, rfl⟩
  · exact Or.inr ⟨rfl, rfl⟩

/-- Nothing can be removed from an absent set. -/
theorem isSome_of_removeFrom {ids : Option (Finset ConnectionId)} {id : ConnectionId}
    (h : (removeFrom ids id).isSome = true) : ids.isSome = true := by
  cases ids with
  | none => cases h
  | some ids => rfl

/-- Without a tracked connection a peer is not reachable, and none remains. -/
theorem PeerLink.of_untracked {l : PeerLink} (h : l.untracked = true) :
    l.relayed = none ∧ l.direct = none ∧ l.relayOnly = false ∧ l.remaining = 0 := by
  simp only [untracked, Bool.not_eq_true', Bool.or_eq_false_iff, Option.isSome_eq_false_iff,
    Option.isNone_iff_eq_none] at h
  refine ⟨h.1, h.2, ?_, ?_⟩
  · rw [relayOnly, h.1]
    rfl
  · rw [remaining, h.1, h.2]
    rfl

/-- A lost connection keeps the agreement. -/
theorem Settled.close (h : Settled x) (id : ConnectionId) (num : UInt32) :
    Agree ⟨x.link.close id num, x.view⟩ := by
  obtain ⟨_, hdirect⟩ := x.link.close_tracked id num
  rcases x.link.close_cases id num with ⟨huntracked, hattempt, hdeadline⟩ | ⟨hattempt, hdeadline⟩
  · refine ⟨fun a session ha => ?_, h.redial, fun a ha => ?_, fun _ => hattempt, fun _ hrelay => ?_⟩
    · rw [hattempt] at ha
      cases ha
    · rw [hdeadline] at ha
      cases ha
    · rw [(PeerLink.of_untracked huntracked).2.2.1] at hrelay
      cases hrelay
  · refine ⟨fun a session ha => ?_, h.redial, fun a ha => ?_, fun hsome => ?_, fun hpending _ => ?_⟩
    · rw [hattempt] at ha
      exact h.ids a session ha
    · rw [hdeadline] at ha
      rw [hattempt]
      exact h.deadline a ha
    · rw [hdirect] at hsome
      exact hattempt.trans (h.direct (isSome_of_removeFrom hsome))
    · rw [hattempt]
      exact h.attempt hpending

/-- The loss of the last connection ends the wait for it. -/
theorem redial_of_lost {remaining : UInt32} (htold : x.Told p (.connectionLost p remaining) y)
    (hremaining : remaining = 0) : y.view.redial = false := by
  cases htold with
  | intro hview hfailed hstep =>
    cases hstep with
    | idle hsubject => exact absurd rfl hsubject
    | failureIgnored he => cases he
    | retriesExhausted he => cases he
    | retryScheduled he => cases he
    | lostOne h => exact absurd hremaining h
    | lostRedial => rfl
    | lostAwaiting => rfl
    | lost => rfl

/-- A direct connection ends every wait. -/
theorem redial_of_direct (htold : x.Told p (.tunnelPeerConnected p false) y) :
    y.view.redial = false := by
  cases htold with
  | intro hview hfailed hstep =>
    cases hstep with
    | idle hsubject => exact absurd rfl hsubject
    | failureIgnored he => cases he
    | retriesExhausted he => cases he
    | retryScheduled he => cases he
    | direct => rfl

/-- The slice of a peer without a pending redial is settled by agreement alone. -/
theorem Agree.settled (h : Agree x) (hredial : x.view.redial = false) : Settled x := by
  refine ⟨h, fun hpending => ?_⟩
  rw [hredial] at hpending
  cases hpending

/-- **Step.** A pass settles every slice again. -/
theorem Settled.pass {env : Env} {s : TunnelState} {events : List Event} (h : Settled x)
    (hview : s.view p = x.view) (hpass : PeerPass env s p x events z) : Settled z := by
  cases hpass with
  | idle => exact h
  | begun a _ harm => exact ⟨h.toAgree.begin harm a, fun _ => rfl⟩
  | @told e e' _ he he' hfailed harmed =>
    refine (h.told (.of_transition env hview hfailed) fun a heq => ?_).armed_of harmed
    rcases he' with rfl | ⟨q, b, reason, rfl, rfl⟩
    · rw [heq] at he
      cases he
    · cases heq
  | @relayedStarted _ id y _ a hintent hstart _ htold harmed =>
    have hbegin : Settled (PeerSlice.begin ⟨x.link.openRelayed id, x.view⟩ a) :=
      ⟨(h.openRelayed id).toAgree.begin ⟨hstart, hintent⟩ a, fun _ => rfl⟩
    exact (hbegin.told htold fun b heq => by cases heq).armed_of harmed
  | @relayed _ id y _ _ _ htold harmed =>
    exact ((h.openRelayed id).told htold fun b heq => by cases heq).armed_of harmed
  | @direct _ id y _ _ htold harmed =>
    have hy := (h.toAgree.openDirect id).told htold fun b heq => by cases heq
    exact (hy.settled (redial_of_direct htold)).armed_of harmed
  | @closed id num y _ htold harmed =>
    have hy := (h.close id num).told htold fun b heq => by cases heq
    refine Settled.armed_of ?_ harmed
    rcases x.link.close_cases id num with ⟨huntracked, _⟩ | ⟨hattempt, _⟩
    · exact hy.settled (redial_of_lost htold (PeerLink.of_untracked huntracked).2.2.2)
    · refine Settled.told ⟨h.close id num, fun hpending => ?_⟩ htold fun b heq => by cases heq
      exact (congrArg Option.isSome hattempt).trans (h.attempt hpending)
  | @timedOut a s' v cs hdeadline _ hview' hstep =>
    have hexpire : Settled ⟨x.link.expire, x.view⟩ :=
      ⟨⟨h.ids, h.redial, fun _ hb => (by cases hb), h.direct, h.armed⟩, h.attempt⟩
    refine hexpire.told (.intro hview' (fun b hb => ?_) hstep) fun b heq => by cases heq
    cases hb
    exact h.deadline a hdeadline
  | expired =>
    exact ⟨⟨h.ids, h.redial, fun _ hb => (by cases hb), h.direct, h.armed⟩, h.attempt⟩

/-! ## Deliveries -/

/-- Bookkeeping keeps the agreement, unless it starts an attempt that the tunnel machine is
about to be told. -/
theorem Settled.booked {c d : ConnectionStateMachine} {t : TunnelState} {event : SwarmEvent}
    {synthetic : List Event} (h : Settled ⟨c.link p, t.view p⟩)
    (hbooked : Booked c t event d synthetic) :
    (Agree ⟨d.link p, t.view p⟩ ∧ ∀ a, .holePunchAttemptStarted p a ∉ synthetic) ∨
    ∃ a l, synthetic = [.holePunchAttemptStarted p a] ∧ (c.link p).attempt = none ∧
      d.link p = l.start a ∧ Agree ⟨l, t.view p⟩ ∧ PeerSlice.Armable ⟨l, t.view p⟩ := by
  cases hbooked with
  | @relayedStarted q id endpoint _ a hrelayed hintent hstart hlink =>
    by_cases hpq : p = q
    · subst hpq
      have hlinkp := (hlink p).trans (if_pos rfl)
      exact Or.inr ⟨a, _, rfl, hstart.2, hlinkp, (h.openRelayed id).toAgree, hstart, hintent⟩
    · rw [(hlink p).trans (if_neg hpq)]
      refine Or.inl ⟨h.toAgree, fun b hb => ?_⟩
      cases List.mem_singleton.mp hb
      exact hpq rfl
  | @relayed q id endpoint _ _ _ hlink =>
    refine Or.inl ⟨?_, fun b hb => by cases hb⟩
    by_cases hpq : p = q
    · rw [(hlink p).trans (if_pos hpq)]
      exact (h.openRelayed id).toAgree
    · rw [(hlink p).trans (if_neg hpq)]
      exact h.toAgree
  | @direct q id endpoint _ _ hlink =>
    refine Or.inl ⟨?_, fun b hb => by cases hb⟩
    by_cases hpq : p = q
    · rw [(hlink p).trans (if_pos hpq)]
      exact h.toAgree.openDirect id
    · rw [(hlink p).trans (if_neg hpq)]
      exact h.toAgree
  | @closed q id num _ hlink =>
    refine Or.inl ⟨?_, fun b hb => by cases List.mem_singleton.mp hb⟩
    by_cases hpq : p = q
    · rw [(hlink p).trans (if_pos hpq)]
      exact h.close id num
    · rw [(hlink p).trans (if_neg hpq)]
      exact h.toAgree
  | other _ hlink =>
    rw [hlink p]
    exact Or.inl ⟨h.toAgree, fun b hb => by cases hb⟩

namespace NodeState

variable {Sw : Type} (api : SwarmApi Sw) (cfg : NodeConfig) (env : Env)

/-- Feeding an attempt that was just started restores the agreement. -/
theorem feed_begin (n : NodeState Sw) {a : ℕ} (hslice : n.slice p = ⟨x.link.start a, x.view⟩)
    (h : Agree x) (harm : x.Armable) :
    Yields (n.feed api cfg env (.holePunchAttemptStarted p a)) p Agree := by
  have htold : Yields ((deliver api cfg env .eventList n (.holePunchAttemptStarted p a)).1,
      [(deliver api cfg env .eventList n (.holePunchAttemptStarted p a)).2]) p Agree := by
    refine deliver_yields api cfg env .eventList n _ (fun b hb => by cases hb) fun y hy => ?_
    rw [hslice] at hy
    rw [hy.eq_begin]
    exact h.begin harm a
  exact htold.append (arm_yields api cfg env (fun _ b hy hb => hy.begin hb b) _ htold.slice)

/-- Every delivery of a prepared event list upholds the agreement. -/
theorem feedAll_agree {n : NodeState Sw} {event : SwarmEvent}
    {r : NodeState Sw × List Event × List Delivery} (hprepared : Prepared cfg env n event r)
    (hrunning : n.app.phase ≠ .shuttingDown) (h : Settled (n.slice p)) :
    Yields (r.1.feedAll api cfg env r.2.1) p Agree := by
  obtain ⟨⟨synthetic, ctx, isConnected, hbooked, hevents⟩, htunnel, hphase, _⟩ := hprepared
  have hphase : r.1.app.phase ≠ .shuttingDown := fun h => hrunning (hphase h)
  have hview : r.1.app.tunnel.view p = n.app.tunnel.view p := by rw [htunnel]
  have htranslated := translateSwarmEvent_attempts env cfg.bootstrapPeerIds ctx isConnected event
  have hstep {es : List Event} (hes : ∀ e ∈ es, ∀ a, e ≠ .holePunchAttemptStarted p a) (e : Event)
      (he : e ∈ es) (c : ConnectionStateMachine) (e' : Event)
      (hfailed : e.failedAttempt = none) (he' : attributeFailure c e = some e') (x y : PeerSlice)
      (hx : Agree x) (hy : x.Told p e' y) : Agree y := by
    refine hx.told hy fun a heq => ?_
    rcases (attributeFailure_eq_some hfailed he').1 with rfl | ⟨q, b, reason, _, rfl⟩
    · exact hes _ he a heq
    · cases heq
  rw [hevents]
  rcases h.booked hbooked with ⟨hagree, hno⟩ | ⟨a, l, rfl, _, hlink, hagree, harm⟩
  · have hfailed : ∀ e ∈ synthetic ++ (translateSwarmEvent env cfg.bootstrapPeerIds ctx isConnected
        event).1, e.failedAttempt = none := by
      intro e he
      rcases List.mem_append.mp he with he | he
      · exact hbooked.failedAttempt e he
      · exact (htranslated e he).1
    refine feedAll_yields api cfg env hfailed (fun _ b hy hb => hy.begin hb b)
      (fun e he c e' he' x y => hstep (fun f hf b heq => ?_) e he c e' (hfailed e he) he' x y) r.1 ?_
    · rcases List.mem_append.mp hf with hf | hf
      · rw [heq] at hf
        exact hno b hf
      · exact (htranslated f hf).2 p b heq
    · have hslice : r.1.slice p = ⟨r.1.conn.link p, n.app.tunnel.view p⟩ := PeerSlice.ext rfl hview
      rw [hslice]
      exact hagree
  · have hslice : r.1.slice p = ⟨l.start a, n.app.tunnel.view p⟩ := PeerSlice.ext hlink hview
    have hbegin := feed_begin api cfg env r.1 (x := ⟨l, n.app.tunnel.view p⟩) hslice hagree harm
    rw [List.singleton_append, feedAll_cons api cfg env _ _ (fun h => by cases h) hphase]
    exact hbegin.append (feedAll_yields api cfg env (fun e he => (htranslated e he).1)
      (fun _ b hy hb => hy.begin hb b) (fun e he c e' he' x y =>
        hstep (fun f hf b => (htranslated f hf).2 p b) e he c e' (htranslated e he).1 he' x y) _
      hbegin.slice)

/-- Every delivery of the timer upholds what a failed attempt keeps. -/
theorem foldl_expireAttempt_yields {J : PeerSlice → Prop} (due : List (PeerId × ℕ))
    (hJ : ∀ a, (p, a) ∈ due → ∀ x, J x → x.link.attempt = some a ∧
      ∀ y, x.Told p (.holePunchAttemptTimeout p a) y → J y)
    (acc : NodeState Sw × List Delivery) (hacc : Yields acc p J) :
    Yields (due.foldl (expireAttempt api cfg env) acc) p J := by
  induction due generalizing acc with
  | nil => exact hacc
  | cons e due ih =>
    obtain ⟨q, a⟩ := e
    refine ih (fun b hb => hJ b (List.mem_cons_of_mem _ hb)) _ ?_
    unfold expireAttempt
    split
    · have htold : Yields ((deliver api cfg env .holePunchTimer acc.1
          (.holePunchAttemptTimeout q a)).1, [(deliver api cfg env .holePunchTimer acc.1
            (.holePunchAttemptTimeout q a)).2]) p J := by
        refine deliver_yields api cfg env .holePunchTimer acc.1 _ (fun b hb => ?_) fun y hy => ?_
        · cases hb
          exact ⟨(hJ _ (List.mem_cons_self ..) _ hacc.slice).1, hacc.slice⟩
        · by_cases hpq : p = q
          · subst hpq
            exact (hJ a (List.mem_cons_self ..) _ hacc.slice).2 y hy
          · rw [hy.eq_of_quiet (fun heq => hpq (Option.some.inj heq).symm) rfl]
            exact hacc.slice
      exact hacc.append htold
    · exact hacc

/-- Every delivery of the timer branch upholds the agreement. -/
theorem onHolePunchTimer_agree (n : NodeState Sw) (h : Settled (n.slice p)) :
    Yields (n.onHolePunchTimer api cfg env) p Agree := by
  have hlink := n.conn.takeDueHolePunchTimeouts_link env env.now p
  have hstart : Agree (NodeState.slice
      { n with conn := (n.conn.takeDueHolePunchTimeouts env env.now).1 } p) := by
    have hexpire : Agree ⟨(n.slice p).link.expire, (n.slice p).view⟩ :=
      ⟨h.ids, h.redial, fun _ hb => (by cases hb), h.direct, h.armed⟩
    by_cases hp : p ∈ (n.conn.takeDueHolePunchTimeouts env env.now).2.map Prod.fst
    · have hslice : NodeState.slice
          { n with conn := (n.conn.takeDueHolePunchTimeouts env env.now).1 } p =
          ⟨(n.slice p).link.expire, (n.slice p).view⟩ :=
        PeerSlice.ext (hlink.trans (if_pos hp)) rfl
      rw [hslice]
      exact hexpire
    · have hslice : NodeState.slice
          { n with conn := (n.conn.takeDueHolePunchTimeouts env env.now).1 } p = n.slice p :=
        PeerSlice.ext (hlink.trans (if_neg hp)) rfl
      rw [hslice]
      exact h.toAgree
  have hattempt : (NodeState.slice
      { n with conn := (n.conn.takeDueHolePunchTimeouts env env.now).1 } p).link.attempt =
      (n.slice p).link.attempt := by
    have heq := congrArg PeerLink.attempt hlink
    split at heq <;> exact heq
  have hyields := foldl_expireAttempt_yields api cfg env (p := p)
    (J := fun x => Agree x ∧ x.link.attempt = (n.slice p).link.attempt)
    (n.conn.takeDueHolePunchTimeouts env env.now).2
    (fun a ha x hx => ⟨hx.2.trans (h.deadline a (ConnectionStateMachine.deadline_of_mem_due ha)),
      fun y hy => ⟨hx.1.told hy fun b heq => (by cases heq),
        (congrArg PeerLink.attempt hy.link_eq).trans hx.2⟩⟩)
    ({ n with conn := (n.conn.takeDueHolePunchTimeouts env env.now).1 }, [])
    ⟨⟨hstart, hattempt⟩, fun d hd => by cases hd⟩
  exact hyields.mono fun _ hx => hx.1

/-- What a pass guarantees of each of its deliveries. -/
theorem upholds_of_mem_pass (n : NodeState Sw) (input : LoopInput Sw) {d : Delivery}
    (h : Settled (n.slice p)) (hd : d ∈ ((nodeLoop api cfg).step n input).2) :
    d.Upholds p Agree ∨ (d.source = .portMapping ∧ d.event.failedAttempt = none ∧
      d.after.tunnel = n.app.tunnel ∧ (∀ p, commandsFor p d.commands = []) ∧
      (Agree (d.sliceAfter p) ∨ (n.conn.link p).attempt = none)) := by
  change d ∈ (n.pass api cfg input.env input.branch).2 at hd
  have hquiet (e : Event) (m : NodeState Sw) (source : DeliverySource) (hm : m.slice p = n.slice p)
      (hsubject : e.subject ≠ some p) (hhands : e.handsOver = false)
      (hfailed : e.failedAttempt = none)
      (hd : d ∈ [(deliver api cfg input.env source m e).2]) : d.Upholds p Agree := by
    refine (deliver_yields api cfg input.env source m e (fun a ha => ?_) fun y hy => ?_).upholds d hd
    · rw [hfailed] at ha
      cases ha
    · rw [hy.eq_of_quiet hsubject hhands, hm]
      exact h.toAgree
  unfold pass at hd
  split at hd
  · cases hd
  · rename_i hphase
    cases hbranch : input.branch with
    | swarmEvent event swarm probe =>
      rw [hbranch] at hd
      have hprepared := prepare_prepared api cfg input.env { n with swarm := swarm } event probe
      rcases List.mem_append.mp hd with hd | hd
      · have hprobe := hprepared.probed d hd
        refine Or.inr ⟨hprobe.source, ?_, hprobe.after, hprobe.commands, ?_⟩
        · rw [hprobe.event]
          rfl
        · obtain ⟨synthetic, _, _, hbooked, _⟩ := hprepared.booked
          have hslice : d.sliceAfter p = ⟨(prepare api cfg input.env { n with swarm := swarm } event
              probe).1.conn.link p, n.app.tunnel.view p⟩ := by
            refine PeerSlice.ext ?_ ?_
            · exact congrArg (ConnectionStateMachine.link · p) hprobe.conn
            · exact congrArg (TunnelState.view · p) hprobe.after
          rcases Settled.booked (p := p) h hbooked with ⟨hagree, _⟩ | ⟨_, _, _, hnone, _⟩
          · rw [hslice]
            exact Or.inl hagree
          · exact Or.inr hnone
      · exact Or.inl ((feedAll_agree api cfg input.env hprepared hphase h).upholds d hd)
    | discoveryDeadline =>
      rw [hbranch] at hd
      dsimp only at hd
      split at hd
      · cases hd
      · exact Or.inl (hquiet .discoveryTimeout { n with discoveryTimeoutFired := true }
          .discoveryDeadline rfl (fun h => by cases h) rfl rfl hd)
    | reconnectTimer =>
      rw [hbranch] at hd
      cases hd
    | holePunchTimer =>
      rw [hbranch] at hd
      exact Or.inl ((onHolePunchTimer_agree api cfg input.env n h).upholds d hd)
    | shutdownSignal =>
      rw [hbranch] at hd
      exact Or.inl (hquiet .shutdownRequested n .shutdownSignal rfl (fun h => by cases h) rfl rfl hd)

/-! ## Runs -/

/-- A node starts without connections, attempts and sessions. -/
theorem start_slice (natMapping : NatMapping) (swarm : Sw) :
    ∃ pending, (start api cfg env natMapping swarm).slice p =
      ⟨⟨none, none, none, none⟩, ⟨pending, none, false, none, false, none⟩⟩ := by
  obtain ⟨pending, hview⟩ := TunnelState.configured_view (cfg.tunnelCalls natMapping) p
  have hyields (e : Event) (n : NodeState Sw) (hn : n.slice p =
      ⟨⟨none, none, none, none⟩, ⟨pending, none, false, none, false, none⟩⟩)
      (hsubject : e.subject ≠ some p) (hhands : e.handsOver = false)
      (hfailed : e.failedAttempt = none) :
      (deliver api cfg env .eventList n e).1.slice p =
        ⟨⟨none, none, none, none⟩, ⟨pending, none, false, none, false, none⟩⟩ :=
    (deliver_yields api cfg env (J := fun x => x = _) .eventList n e
      (fun a ha => by rw [hfailed] at ha; cases ha)
      fun y hy => (hy.eq_of_quiet hsubject hhands).trans hn).slice
  refine ⟨pending, ?_⟩
  unfold start
  dsimp only
  split
  · exact hyields .noBootstrapPeers _ (PeerSlice.ext rfl hview) (fun h => by cases h) rfl rfl
  · exact hyields (.natStatusChanged .isPrivate) _ (PeerSlice.ext rfl hview)
      (fun h => by cases h) rfl rfl

/-- Between the passes of every run, every slice is settled. -/
theorem settled_after (natMapping : NatMapping) (swarm : Sw) (inputs : List (LoopInput Sw))
    (p : PeerId) :
    Settled (((nodeLoop api cfg).after (start api cfg env natMapping swarm) inputs).slice p) := by
  refine Mealy.Machine.invariant (P := fun n : NodeState Sw => ∀ p, Settled (n.slice p)) inputs
    (fun p => ?_) (fun n input hn p => (hn p).pass rfl (n.pass_refines api cfg p input)) p
  obtain ⟨pending, hslice⟩ := start_slice (p := p) api cfg env natMapping swarm
  rw [hslice]
  refine ⟨⟨fun _ _ h => (by cases h), iff_of_false (fun h => by cases h) ?_, fun _ h => (by cases h),
    fun _ => rfl, fun h => by cases h⟩, fun h => by cases h⟩
  rintro ⟨_, h, _⟩
  cases h

end NodeState

/-- Agreement of slices is agreement of the machines. -/
theorem Agree.idsAgree {c : ConnectionStateMachine} {t : TunnelState}
    (h : Agree ⟨c.link p, t.view p⟩) : IdsAgree c t p := by
  intro stats hstats session hsession
  have hattempt : (c.link p).attempt = some stats.attemptId := by
    rw [← ConnectionStateMachine.activeAttemptStats_map, hstats]
    rfl
  exact (h.ids _ _ hattempt (TunnelState.view_session hsession)).symm

/-- The wait for a disconnect shows in the view of the peer. -/
theorem TunnelState.phaseMatchesRedial_of_view {t : TunnelState}
    (h : (t.view p).redial = true ↔ (t.view p).waitsForDisconnect) : t.PhaseMatchesRedial p := by
  have hredial : (t.view p).redial = true ↔ p ∈ t.pendingRetryRedial := by simp [view]
  refine Iff.trans ⟨?_, ?_⟩ (h.symm.trans hredial)
  · rintro ⟨session, hget, hphase⟩
    exact ⟨_, view_session hget, hphase⟩
  · rintro ⟨session, hview, hphase⟩
    obtain ⟨stored, hget, rfl⟩ := Option.map_eq_some_iff.mp hview
    exact ⟨stored, hget, hphase⟩

/-- **Attempt agreement.** Between the passes of every run, and after every delivered event,
the active attempt of a peer and its session have the same id, and the session waits for a
disconnect exactly while a redial is pending. Only when a finished port mapping is delivered
amid the bookkeeping of a pass, the tunnel machine has not been told yet of an attempt that
the pass has just started. A delivered failure is never one of another attempt than that of
the session. -/
theorem attempts_agree {Sw : Type} (api : SwarmApi Sw) (cfg : NodeConfig) (env : Env)
    (natMapping : NatMapping) (swarm : Sw) (inputs : List (LoopInput Sw)) (p : PeerId) :
    let n := (nodeLoop api cfg).after (NodeState.start api cfg env natMapping swarm) inputs
    (IdsAgree n.conn n.app.tunnel p ∧ n.app.tunnel.PhaseMatchesRedial p) ∧
      ∀ input, ∀ d ∈ ((nodeLoop api cfg).step n input).2,
        (IdsAgree d.conn d.after.tunnel p ∨
          d.source = .portMapping ∧ n.conn.activeAttemptStats p = none) ∧
        d.after.tunnel.PhaseMatchesRedial p ∧
        ∀ a, d.event.failedAttempt = some (p, a) → ¬d.before.tunnel.TakesStaleBranch p a := by
  intro n
  have hsettled : Settled (n.slice p) :=
    NodeState.settled_after api cfg env natMapping swarm inputs p
  refine ⟨⟨hsettled.toAgree.idsAgree, TunnelState.phaseMatchesRedial_of_view hsettled.redial⟩,
    fun input d hd => ?_⟩
  rcases n.upholds_of_mem_pass api cfg input hsettled hd with
    hupholds | ⟨hsource, hfailed, hafter, _, hids⟩
  · refine ⟨Or.inl hupholds.after.idsAgree,
      TunnelState.phaseMatchesRedial_of_view hupholds.after.redial, fun a ha => ?_⟩
    rintro ⟨session, hget, hstale⟩
    obtain ⟨hattempt, hbefore⟩ := hupholds.failed a ha
    exact hstale (hbefore.ids a _ hattempt (TunnelState.view_session hget))
  · refine ⟨?_, ?_, fun a ha => ?_⟩
    · rcases hids with hagree | hnone
      · exact Or.inl hagree.idsAgree
      · exact Or.inr ⟨hsource, Option.map_eq_none_iff.mp hnone⟩
    · rw [hafter]
      exact TunnelState.phaseMatchesRedial_of_view hsettled.redial
    · rw [hfailed] at ha
      cases ha

/-! ## An attempt the tunnel machine has not been told of -/

/-- A sample swarm: the connected peers, and the number of queries started so far. -/
structure SampleSwarm where
  /-- The connected peers. -/
  connected : List PeerId
  /-- The number of queries started so far. -/
  queries : ℕ

/-- The sample swarm numbers its queries and accepts every request. -/
def sampleApi : SwarmApi SampleSwarm where
  isConnected swarm peer := peer ∈ swarm.connected
  dial swarm _ := (swarm, .ok ())
  bootstrap swarm := ({ swarm with queries := swarm.queries + 1 }, some ⟨swarm.queries⟩)
  getClosestPeers swarm _ := ({ swarm with queries := swarm.queries + 1 }, ⟨swarm.queries⟩)
  getProviders swarm _ := ({ swarm with queries := swarm.queries + 1 }, ⟨swarm.queries⟩)
  request swarm _ := swarm

/-- An endpoint reached over the relay 9. -/
def relayedEndpoint (peer : PeerId) : ConnectedPoint := .dialer ⟨[.p2p ⟨9⟩, .p2pCircuit, .p2p peer]⟩

/-- An endpoint reached directly. -/
def directEndpoint (peer : PeerId) : ConnectedPoint :=
  .dialer ⟨[.ip4 ⟨203, 0, 113, peer.multihash.toUInt8⟩, .udp 4001, .quicV1, .p2p peer]⟩

/-- A tunnel to peer 1, with a bootstrap peer and hence with a port mapping probe. -/
def mappedConfig : NodeConfig where
  bootstrapAddrs := [⟨[.ip4 ⟨203, 0, 113, 9⟩, .udp 4001, .quicV1, .p2p ⟨9⟩]⟩]
  exposed := []
  tunnelSpecs := [⟨⟨1⟩, webIntent.1, webIntent.2⟩]
  tunnelByNameSpecs := []

/-- The environment in which the deadline of an attempt begun at time zero is due. -/
def Env.late : Env := { Env.sorted with now := holePunchTimeout }

/-- A hole punch times out, the peer is disconnected, and comes back over the relay just when
the port mapping probe has finished. -/
def mappedRun : List (LoopInput SampleSwarm) :=
  [⟨.sorted, .swarmEvent (.newListenAddr ⟨[.ip4 ⟨192, 168, 0, 2⟩, .udp 4001, .quicV1]⟩)
      ⟨[], 0⟩ none⟩,
    ⟨.sorted, .swarmEvent (.connectionEstablished ⟨1⟩ ⟨1⟩ (relayedEndpoint ⟨1⟩)) ⟨[⟨1⟩], 0⟩ none⟩,
    ⟨.late, .holePunchTimer⟩,
    ⟨.late, .swarmEvent (.connectionClosed ⟨1⟩ ⟨1⟩ 0) ⟨[], 0⟩ none⟩,
    ⟨.late, .swarmEvent (.connectionEstablished ⟨1⟩ ⟨2⟩ (relayedEndpoint ⟨1⟩)) ⟨[⟨1⟩], 0⟩
      (some (some (⟨203, 0, 113, 7⟩, 4001)))⟩]

/-- The change of the NAT status is delivered while the new attempt 2 is active and the session
is still that of attempt 1. -/
theorem attempt_ids_differ_amid_pass :
    ∃ d ∈ (nodeLoop sampleApi mappedConfig).outputs
      (.start sampleApi mappedConfig .sorted .unknown ⟨[], 0⟩) mappedRun,
      ¬IdsAgree d.conn d.after.tunnel ⟨1⟩ := by
  decide

end Punchgate
