import Punchgate.State.Retries

/-!
# Redials after a requested disconnect

The tunnel machine is closed with an environment that answers every dial to a peer
exactly once and reports the connections of the peer consistently. A peer whose tunnels
wait for a direct path and that has no connection should always have a dial under way.
A failed dial that is left without an answer can break this, and nothing else can.
-/

namespace Punchgate

/-- An event as the environment reports it, with the note whether it answers a dial. -/
structure Report where
  /-- The environment of the event. -/
  env : Env
  /-- The event. -/
  event : Event
  /-- The event is the answer to a dial the machine has asked for. -/
  answersDial : Bool

/-- The peer an event reports a failed dial of. -/
def Event.failedDial : Event → Option PeerId
  | .tunnelDialFailed peer _ => some peer
  | _ => none

/-- The tunnel machine fed with reports. -/
def TunnelState.reported : Mealy.Machine TunnelState Report Command where
  step s r := s.transition r.env r.event

/-- What the environment knows of a peer. -/
structure DialLedger where
  /-- The dials that were asked for and not answered yet. -/
  outstanding : ℕ
  /-- The open connections. -/
  live : ℕ
  deriving DecidableEq

namespace DialLedger

/-- The ledger before anything happened. -/
def new : DialLedger := ⟨0, 0⟩

/-- The open connections after an event. -/
def liveAfter (p : PeerId) (live : ℕ) : Event → ℕ
  | .tunnelPeerConnected q _ => if q = p then live + 1 else live
  | .connectionLost q _ => if q = p then live - 1 else live
  | _ => live

/-- The ledger of a peer after a report and the commands it led to. -/
def update (p : PeerId) (l : DialLedger) (_ : TunnelState) (r : Report) (cs : List Command) :
    DialLedger where
  outstanding := l.outstanding - (if r.answersDial then 1 else 0) + cs.countP (·.dials p)
  live := liveAfter p l.live r.event

/-- A report is one the environment can make: only outstanding dials are answered, by a
connection or by a failure other than an abort, and the loss of a connection reports how
many are left. -/
def Consistent (p : PeerId) (l : DialLedger) (r : Report) : Prop :=
  match r.event with
  | .tunnelPeerConnected q _ => r.answersDial = true → q = p ∧ 0 < l.outstanding
  | .tunnelDialFailed q reason =>
    r.answersDial = true → q = p ∧ 0 < l.outstanding ∧ isPendingAbortDialError reason = false
  | .connectionLost q remaining =>
    r.answersDial = false ∧ (q = p → l.live = remaining.toNat + 1)
  | _ => r.answersDial = false

instance (p : PeerId) (l : DialLedger) (r : Report) : Decidable (l.Consistent p r) := by
  unfold Consistent
  split <;> infer_instance

end DialLedger

/-- The tunnel machine together with the ledger of a peer. -/
def TunnelState.closed (p : PeerId) : Mealy.Machine (TunnelState × DialLedger) Report Command :=
  TunnelState.reported.withGhost (DialLedger.update p)

namespace TunnelState

/-- Intents that wait for a direct path to an unconnected peer have a dial under way. -/
def DialUnderWay (p : PeerId) (x : TunnelState × DialLedger) : Prop :=
  x.1.awaitingHolepunch.contains p = true → x.2.live = 0 → 0 < x.2.outstanding

instance (p : PeerId) (x : TunnelState × DialLedger) : Decidable (DialUnderWay p x) :=
  inferInstanceAs (Decidable (_ → _ → _))

/-- The session of a peer keeps a failed dial from being retried. -/
def SuppressesRetry (s : TunnelState) (p : PeerId) : Prop :=
  ∃ session ∈ s.holepunchSessions.get? p, session.view.Suppressed

instance (s : TunnelState) (p : PeerId) : Decidable (s.SuppressesRetry p) :=
  inferInstanceAs (Decidable (∃ session ∈ s.holepunchSessions.get? p, session.view.Suppressed))

/-- The last outstanding dial of an unconnected peer fails while intents wait for it, and
the failure is not answered with another dial. -/
def DropsLastDial (p : PeerId) (x : TunnelState × DialLedger) (r : Report) : Prop :=
  r.event.failedDial = some p ∧ r.answersDial = true ∧ x.2.outstanding = 1 ∧ x.2.live = 0 ∧
    x.1.awaitingHolepunch.contains p = true ∧ x.1.SuppressesRetry p

instance (p : PeerId) (x : TunnelState × DialLedger) (r : Report) :
    Decidable (DropsLastDial p x r) :=
  inferInstanceAs (Decidable (_ ∧ _ ∧ _ ∧ _ ∧ _ ∧ _))

end TunnelState

/-! ## One step -/

/-- What is true of a peer in every run with a consistent environment. -/
structure RedialInvariant (v : PeerView) (l : DialLedger) : Prop where
  /-- A relayed peer is connected. -/
  relayed : v.relayed = true → 0 < l.live
  /-- A requested disconnect belongs to a session. -/
  redial : v.redial = true → v.session.isSome = true
  /-- Intents that wait for an unconnected peer have a session. -/
  session : v.awaiting.isSome = true → l.live = 0 → v.session.isSome = true

/-- `DialUnderWay`, on views. -/
def PeerView.Served (v : PeerView) (l : DialLedger) : Prop :=
  v.awaiting.isSome = true → l.live = 0 → 0 < l.outstanding

/-- `DropsLastDial`, on views. -/
def PeerView.Drops (p : PeerId) (v : PeerView) (l : DialLedger) (r : Report) : Prop :=
  r.event.failedDial = some p ∧ r.answersDial = true ∧ l.outstanding = 1 ∧ l.live = 0 ∧
    v.awaiting.isSome = true ∧ ∃ session, v.session = some session ∧ session.Suppressed

section Step

variable {s : TunnelState} {p : PeerId} {r : Report} {v : PeerView} {cs : List Command}
  {l : DialLedger}

/-- Only the commands that act on a peer dial it. -/
theorem countP_dials_commandsFor (p : PeerId) (cs : List Command) :
    (commandsFor p cs).countP (·.dials p) = cs.countP (·.dials p) := by
  unfold commandsFor
  rw [List.countP_filter]
  refine List.countP_congr fun c _ => ?_
  simp only [Bool.and_eq_true, decide_eq_true_eq, and_iff_left_iff_imp]
  exact TunnelState.target_of_dials

/-- A report without a dial, an answer or a connection leaves the ledger alone. -/
theorem DialLedger.update_eq_self (hlive : liveAfter p l.live r.event = l.live)
    (hanswers : r.answersDial = false) (hdials : cs.countP (·.dials p) = 0) :
    l.update p s r cs = l := by
  simp [update, hlive, hanswers, hdials]

/-- A report about another peer leaves the open connections alone. -/
theorem DialLedger.liveAfter_of_subject_ne {e : Event} {live : ℕ} (h : e.subject ≠ some p) :
    liveAfter p live e = live := by
  cases e <;> simp_all [liveAfter, Event.subject]

/-- A report about another peer answers no dial of this one. -/
theorem DialLedger.Consistent.answersDial_of_subject_ne (hcons : l.Consistent p r)
    (h : r.event.subject ≠ some p) : r.answersDial = false := by
  obtain ⟨env, e, answers⟩ := r
  by_contra hanswers
  rw [Bool.not_eq_false] at hanswers
  cases e <;> simp_all [Consistent, Event.subject]

/-- A failed attempt is no answer to a dial and closes no connection. -/
theorem DialLedger.Consistent.of_failedAttempt {attemptId : ℕ} (hcons : l.Consistent p r)
    (he : r.event.failedAttempt = some (p, attemptId)) :
    liveAfter p l.live r.event = l.live ∧ r.answersDial = false ∧
      r.event.failedDial ≠ some p := by
  obtain ⟨env, e, answers⟩ := r
  cases e <;> simp_all [Consistent, liveAfter, Event.failedAttempt, Event.failedDial]

/-- Spawning tunnels dials nobody. -/
theorem countP_dials_spawnTunnels (p : PeerId) (specs : List Intent) :
    (spawnTunnels p specs).countP (·.dials p) = 0 := by
  refine List.countP_eq_zero.mpr fun c hc => ?_
  obtain ⟨spec, _, rfl⟩ := List.mem_map.mp hc
  simp [Command.dials]

/-- A connected peer needs no dial. -/
theorem RedialInvariant.of_live (hlive : 0 < l.live)
    (hredial : v.redial = true → v.session.isSome = true) : RedialInvariant v l ∧ v.Served l := by
  refine ⟨⟨fun _ => hlive, hredial, fun _ h => ?_⟩, fun _ h => ?_⟩
  · omega
  · omega

/-- A peer that nothing waits for needs no dial. -/
theorem RedialInvariant.of_awaiting_none (hawaiting : v.awaiting = none)
    (hredial : v.redial = false) (hrelayed : v.relayed = true → 0 < l.live) :
    RedialInvariant v l ∧ v.Served l := by
  refine ⟨⟨hrelayed, fun h => ?_, fun h => ?_⟩, fun h => ?_⟩
  · rw [hredial] at h
    cases h
  · rw [hawaiting] at h
    cases h
  · rw [hawaiting] at h
    cases h

/-- Routing to a peer that is relayed only if it is connected keeps the invariant. -/
theorem RedialInvariant.route {v : PeerView} (hinv : RedialInvariant v l) (p : PeerId)
    (specs : List Intent) :
    RedialInvariant (v.route p specs).1 l ∧
      (v.Served l → (v.route p specs).1.Served l) ∧
      (v.route p specs).2.countP (·.dials p) = 0 := by
  unfold PeerView.route
  split
  · rename_i hrelayed
    have hqueued : RedialInvariant { v with awaiting := some (v.awaiting.getD [] ++ specs) } l ∧
        PeerView.Served { v with awaiting := some (v.awaiting.getD [] ++ specs) } l :=
      RedialInvariant.of_live (hinv.relayed hrelayed) hinv.redial
    exact ⟨hqueued.1, fun _ => hqueued.2, rfl⟩
  · exact ⟨hinv, fun h => h, countP_dials_spawnTunnels p specs⟩

/-- A step that does not drop the last dial keeps one under way. -/
theorem redial_step_of_not_drops (hdrops : ¬(s.view p).Drops p l r)
    (hinv : RedialInvariant v (l.update p s r cs))
    (hserved : (s.view p).Served l → v.Served (l.update p s r cs)) :
    RedialInvariant v (l.update p s r cs) ∧ ((s.view p).Served l →
      (v.Served (l.update p s r cs) ↔ ¬(s.view p).Drops p l r)) :=
  ⟨hinv, fun h => iff_of_true (hserved h) hdrops⟩

/-- A step that reports no failed dial drops none. -/
theorem redial_step_of_served (hevent : r.event.failedDial ≠ some p)
    (hinv : RedialInvariant v (l.update p s r cs))
    (hserved : (s.view p).Served l → v.Served (l.update p s r cs)) :
    RedialInvariant v (l.update p s r cs) ∧ ((s.view p).Served l →
      (v.Served (l.update p s r cs) ↔ ¬(s.view p).Drops p l r)) :=
  redial_step_of_not_drops (fun h => hevent h.1) hinv hserved

/-- A step after which no dial is needed. -/
theorem redial_step_of_unneeded (hevent : r.event.failedDial ≠ some p)
    (h : RedialInvariant v (l.update p s r cs) ∧ v.Served (l.update p s r cs)) :
    RedialInvariant v (l.update p s r cs) ∧ ((s.view p).Served l →
      (v.Served (l.update p s r cs) ↔ ¬(s.view p).Drops p l r)) :=
  redial_step_of_served hevent h.1 fun _ => h.2

/-- A step that leaves the ledger alone and reports no failed dial. -/
theorem redial_step_of_quiet (hl : l.update p s r cs = l)
    (hevent : r.event.failedDial ≠ some p) (hinv : RedialInvariant v l)
    (hserved : (s.view p).Served l → v.Served l) :
    RedialInvariant v (l.update p s r cs) ∧ ((s.view p).Served l →
      (v.Served (l.update p s r cs) ↔ ¬(s.view p).Drops p l r)) := by
  refine redial_step_of_served hevent ?_ ?_
  · rw [hl]
    exact hinv
  · rw [hl]
    exact hserved

/-- **Step.** Every consistent report keeps the invariant, and it keeps a dial under way
exactly if it is not an unanswered failure of the last one. -/
theorem PeerStep.redial_step (h : PeerStep s p r.event v cs) (hcons : l.Consistent p r)
    (hinv : RedialInvariant (s.view p) l) :
    RedialInvariant v (l.update p s r cs) ∧ ((s.view p).Served l →
      (v.Served (l.update p s r cs) ↔ ¬(s.view p).Drops p l r)) := by
  obtain ⟨env, e, answers⟩ := r
  change PeerStep s p e v cs at h
  cases h with
  | idle hsubject =>
    have hanswers := hcons.answersDial_of_subject_ne hsubject
    have hlive : DialLedger.liveAfter p l.live e = l.live :=
      DialLedger.liveAfter_of_subject_ne hsubject
    refine redial_step_of_quiet (DialLedger.update_eq_self hlive hanswers rfl) ?_ hinv fun h => h
    intro hfailed
    cases e <;> simp_all [Event.failedDial, Event.subject]
  | @handedOver q reason specs hq _ _ =>
    have hsubject : (Event.tunnelDialFailed q reason).subject ≠ some p := fun heq =>
      hq (Option.some.inj heq)
    have hanswers := hcons.answersDial_of_subject_ne hsubject
    refine redial_step_of_quiet (DialLedger.update_eq_self rfl hanswers rfl) ?_
      ⟨hinv.relayed, hinv.redial, hinv.session⟩ fun h => h
    exact hsubject
  | resolved =>
    exact redial_step_of_quiet (DialLedger.update_eq_self rfl hcons rfl) (fun heq => by cases heq)
      ⟨hinv.relayed, hinv.redial, hinv.session⟩ fun h => h
  | @resolvedConnected svc rest binds =>
    obtain ⟨hroute, hserved, hdials⟩ := hinv.route p (binds.map (svc, ·))
    exact redial_step_of_quiet (DialLedger.update_eq_self rfl hcons hdials)
      (fun heq => by cases heq) hroute hserved
  | @lookedUpConnected specs =>
    have hinv' : RedialInvariant { s.view p with pending := none } l :=
      ⟨hinv.relayed, hinv.redial, hinv.session⟩
    obtain ⟨hroute, hserved, hdials⟩ := hinv'.route p specs
    exact redial_step_of_quiet (DialLedger.update_eq_self rfl hcons hdials)
      (fun heq => by cases heq) hroute hserved
  | lookedUpUnneeded =>
    exact redial_step_of_quiet (DialLedger.update_eq_self rfl hcons rfl)
      (fun heq => by cases heq) hinv fun h => h
  | lookedUp =>
    have hanswers : answers = false := hcons
    refine redial_step_of_served (fun heq => by cases heq)
      ⟨hinv.relayed, hinv.redial, hinv.session⟩ fun hserved hawaiting hlive => ?_
    have hpos := hserved hawaiting hlive
    simp only [DialLedger.update, hanswers, Bool.false_eq_true, if_false]
    omega
  | @dialFailedIgnored reason hignored =>
    -- either nothing waits, or a dial is still pending, so that this is not its answer
    have hquiet : (s.view p).awaiting.isSome = true → answers = false := by
      intro hawaiting
      rcases hignored with hintent | ⟨_, habort⟩
      · simp [PeerView.intent, hawaiting] at hintent
      · by_contra hanswers
        have hcons := hcons (Bool.eq_true_of_not_eq_false hanswers)
        rw [habort] at hcons
        cases hcons.2.2
    refine redial_step_of_not_drops ?_ ⟨hinv.relayed, hinv.redial, hinv.session⟩
      fun hserved hawaiting => ?_
    · rintro ⟨_, hanswers, _, _, hawaiting, _⟩
      cases hanswers.symm.trans (hquiet hawaiting)
    · rw [DialLedger.update_eq_self rfl (hquiet hawaiting) rfl]
      exact hserved hawaiting
  | @dialFailedSuppressed reason session hawaiting hreason hsession hsuppressed =>
    refine ⟨⟨hinv.relayed, hinv.redial, hinv.session⟩, fun hserved => ?_⟩
    have hdrops : (s.view p).Drops p l ⟨env, .tunnelDialFailed p reason, answers⟩ ↔
        answers = true ∧ l.outstanding = 1 ∧ l.live = 0 :=
      ⟨fun h => ⟨h.2.1, h.2.2.1, h.2.2.2.1⟩,
        fun h => ⟨rfl, h.1, h.2.1, h.2.2, hawaiting, session, hsession, hsuppressed⟩⟩
    rw [hdrops]
    have hpos := hserved hawaiting
    cases answers with
    | false =>
      rw [DialLedger.update_eq_self rfl rfl rfl]
      exact iff_of_true hserved (by simp)
    | true =>
      simp only [PeerView.Served, hawaiting, DialLedger.update, DialLedger.liveAfter, if_true,
        List.countP_nil, forall_const, true_and, not_and]
      constructor
      · intro h hone hlive
        have hout := h hlive
        omega
      · intro h hlive
        have hout := hpos hlive
        by_contra hzero
        exact h (by omega) hlive
  | @dialFailedRetried reason session c hawaiting _ hsession hsuppressed hc =>
    refine redial_step_of_not_drops ?_ ⟨hinv.relayed, fun _ => rfl, fun _ _ => rfl⟩
      fun _ _ _ => ?_
    · rintro ⟨_, _, _, _, _, session', hsession', hsuppressed'⟩
      rw [hsession] at hsession'
      cases hsession'
      exact hsuppressed hsuppressed'
    · simp only [DialLedger.update, List.countP_cons, hc, if_true]
      omega
  | @dialFailedRerouted reason hintent hbranch =>
    refine redial_step_of_not_drops ?_ ⟨hinv.relayed, hinv.redial, hinv.session⟩
      fun _ hawaiting hlive => ?_
    · rintro ⟨_, _, _, _, hawaiting, session, hsession, _⟩
      rcases hbranch with hnone | ⟨hnone, _⟩
      · rw [hnone] at hawaiting
        cases hawaiting
      · rw [hnone] at hsession
        cases hsession
    · rcases hbranch with hnone | ⟨hnone, _⟩
      · have hsome : (s.view p).awaiting.isSome = true := hawaiting
        rw [hnone] at hsome
        cases hsome
      · have hsome := hinv.session hawaiting hlive
        rw [hnone] at hsome
        cases hsome
  | identified =>
    refine redial_step_of_quiet (DialLedger.update_eq_self rfl hcons rfl)
      (fun heq => by cases heq) ⟨hinv.relayed, fun h => ?_, fun h hlive => ?_⟩ fun h => h
    · simpa using hinv.redial h
    · simpa using hinv.session h hlive
  | relayed | relayedQueued =>
    have hlive : (l.update p s ⟨env, .tunnelPeerConnected p true, answers⟩ []).live = l.live + 1 := by
      simp [DialLedger.update, DialLedger.liveAfter]
    exact redial_step_of_unneeded (fun heq => by cases heq)
      (RedialInvariant.of_live (by omega) hinv.redial)
  | direct =>
    exact redial_step_of_unneeded (fun heq => by cases heq)
      (RedialInvariant.of_awaiting_none rfl rfl fun h => by cases h)
  | started =>
    exact redial_step_of_quiet (DialLedger.update_eq_self rfl hcons rfl)
      (fun heq => by cases heq) ⟨hinv.relayed, fun _ => rfl, fun _ _ => rfl⟩ fun h => h
  | failureIgnored he =>
    obtain ⟨hlive, hanswers, hevent⟩ := hcons.of_failedAttempt he
    exact redial_step_of_quiet (DialLedger.update_eq_self hlive hanswers rfl) hevent hinv fun h => h
  | retriesExhausted he =>
    obtain ⟨hlive, hanswers, hevent⟩ := hcons.of_failedAttempt he
    exact redial_step_of_unneeded hevent
      (RedialInvariant.of_awaiting_none rfl rfl fun h => (hinv.relayed h).trans_eq hlive.symm)
  | retryScheduled he =>
    obtain ⟨hlive, hanswers, hevent⟩ := hcons.of_failedAttempt he
    exact redial_step_of_quiet (DialLedger.update_eq_self hlive hanswers (by simp [Command.dials]))
      hevent ⟨hinv.relayed, fun _ => rfl, fun _ _ => rfl⟩ fun h => h
  | @lostOne remaining hremaining =>
    have hpos : remaining.toNat ≠ 0 := fun h => hremaining (UInt32.toNat_inj.mp h)
    have hone := hcons.2 rfl
    have hlive : (l.update p s ⟨env, .connectionLost p remaining, answers⟩ []).live =
        l.live - 1 := by
      simp [DialLedger.update, DialLedger.liveAfter]
    exact redial_step_of_unneeded (fun heq => by cases heq)
      (RedialInvariant.of_live (by omega) hinv.redial)
  | lostRedial hredial hc =>
    refine redial_step_of_served (fun heq => by cases heq)
      ⟨fun h => (by cases h), fun h => (by cases h), fun _ _ => ?_⟩ fun _ _ _ => ?_
    · simpa using hinv.redial hredial
    · simp only [DialLedger.update, List.countP_cons, hc, if_true]
      omega
  | lostAwaiting =>
    exact redial_step_of_unneeded (fun heq => by cases heq)
      (RedialInvariant.of_awaiting_none rfl rfl fun h => by cases h)
  | lost _ hawaiting =>
    exact redial_step_of_unneeded (fun heq => by cases heq)
      (RedialInvariant.of_awaiting_none hawaiting rfl fun h => by cases h)

end Step

/-! ## Runs -/

namespace TunnelState

variable {p : PeerId}

/-- A step drops the last dial exactly if it does so in the view of the peer. -/
theorem dropsLastDial_iff {x : TunnelState × DialLedger} {r : Report} :
    DropsLastDial p x r ↔ (x.1.view p).Drops p x.2 r := by
  have hsession : x.1.SuppressesRetry p ↔
      ∃ session, (x.1.view p).session = some session ∧ session.Suppressed := by
    constructor
    · rintro ⟨session, hget, hsuppressed⟩
      exact ⟨session.view, view_session hget, hsuppressed⟩
    · rintro ⟨session, hview, hsuppressed⟩
      obtain ⟨stored, hget, rfl⟩ := Option.map_eq_some_iff.mp hview
      exact ⟨stored, hget, hsuppressed⟩
  unfold DropsLastDial PeerView.Drops
  rw [hsession]
  rfl

/-- **No stranded redial, exactly.** In a run with a consistent environment, intents that
wait for a direct path to an unconnected peer have a dial under way in every state if
and only if no step leaves the failure of the last dial unanswered. -/
theorem dialUnderWay_iff_never_drops {calls : List ConfigCall} {reports : List Report}
    (hcons : (closed p).Guarded (fun x r => x.2.Consistent p r) (configured calls, .new) reports) :
    (closed p).Always (DialUnderWay p) (configured calls, .new) reports ↔
      (closed p).Guarded (fun x r => ¬DropsLastDial p x r) (configured calls, .new) reports := by
  obtain ⟨pending, hview⟩ := configured_view calls p
  have hstep (x : TunnelState × DialLedger) (r : Report) (hinv : RedialInvariant (x.1.view p) x.2)
      (hr : x.2.Consistent p r) :
      RedialInvariant (((closed p).step x r).1.1.view p) ((closed p).step x r).1.2 ∧
        (DialUnderWay p x →
          (DialUnderWay p ((closed p).step x r).1 ↔ ¬DropsLastDial p x r)) := by
    have hpeer := (x.1.transition_refines r.env p r.event).redial_step hr hinv
    have hledger : ((closed p).step x r).1.2 =
        x.2.update p x.1 r (commandsFor p (x.1.transition r.env r.event).2) := by
      simp only [closed, Mealy.Machine.withGhost_step, DialLedger.update, reported,
        countP_dials_commandsFor]
    rw [hledger, dropsLastDial_iff]
    refine ⟨hpeer.1, fun h => ?_⟩
    have hserved := hpeer.2 h
    rw [← hledger] at hserved
    exact hserved
  refine hcons.always_iff (J := fun x => RedialInvariant (x.1.view p) x.2) ?_ ?_
    (fun x r hinv hr => (hstep x r hinv hr).1) fun x r hinv hx hr => (hstep x r hinv hr).2 hx
  · rw [hview]
    exact ⟨fun h => (by cases h), fun h => (by cases h), fun h => by cases h⟩
  · intro hawaiting
    rw [contains_awaiting, hview] at hawaiting
    cases hawaiting

/-- A hole punch that ends in a disconnect, the redial, and its first failure. -/
def failedRedial : List Report :=
  [⟨Env.sorted, .dhtPeerLookupComplete ⟨1⟩ false, false⟩,
    ⟨Env.sorted, .tunnelPeerConnected ⟨1⟩ true, true⟩,
    ⟨Env.sorted, .holePunchAttemptStarted ⟨1⟩ 1, false⟩,
    ⟨Env.sorted, .holePunchAttemptTimeout ⟨1⟩ 1, false⟩,
    ⟨Env.sorted, .connectionLost ⟨1⟩ 0, false⟩,
    ⟨Env.sorted, .tunnelDialFailed ⟨1⟩ "timeout", true⟩]

/-- The first failure of the redial is answered with another dial. -/
theorem dialUnderWay_iff_never_drops_first_failure :
    (closed ⟨1⟩).Always (DialUnderWay ⟨1⟩) (configured [webTunnel], .new) failedRedial :=
  (dialUnderWay_iff_never_drops (by decide)).mpr (by decide)

/-- The second failure of the redial is not: the tunnel is left without any dial. -/
theorem dial_dropped_by_second_failure :
    (closed ⟨1⟩).Guarded (fun x r => x.2.Consistent ⟨1⟩ r) (configured [webTunnel], .new)
        (failedRedial ++ [⟨Env.sorted, .tunnelDialFailed ⟨1⟩ "timeout", true⟩]) ∧
      ¬DialUnderWay ⟨1⟩ ((closed ⟨1⟩).after (configured [webTunnel], .new)
        (failedRedial ++ [⟨Env.sorted, .tunnelDialFailed ⟨1⟩ "timeout", true⟩])) := by
  decide

end TunnelState

end Punchgate
