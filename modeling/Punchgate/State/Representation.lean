import Punchgate.State.Retries
import Punchgate.State.Service

/-!
# The representation of the tunnel machine

Later decisions test whether a map has an entry, so the entries must mean something: no list
of intents is empty, no reserve of providers is empty or has repetitions, and the counters and
sessions of a retried hole punch exist together.
-/

namespace Punchgate

/-- The representation invariant of the tunnel machine. -/
structure TunnelState.Represents (s : TunnelState) : Prop where
  /-- Some intent is pending for every listed peer. -/
  pendingByPeer : ∀ p specs, s.pendingByPeer.get? p = some specs → specs ≠ []
  /-- Some intent is pending for every listed service. -/
  pendingByService : ∀ svc binds, s.pendingByService.get? svc = some binds → binds ≠ []
  /-- Some intent of every listed peer waits for a direct connection. -/
  awaitingHolepunch : ∀ p specs, s.awaitingHolepunch.get? p = some specs → specs ≠ []
  /-- A reserve of providers is never empty and has no repetitions. -/
  serviceProviderCandidates : ∀ svc ps, s.serviceProviderCandidates.get? svc = some ps →
    ps ≠ [] ∧ ps.Nodup
  /-- A peer to be redialed has used a retry. -/
  pendingRetryRedial : ∀ p ∈ s.pendingRetryRedial, p ∈ s.holepunchRetryAttempts.keys
  /-- Retries are counted while intents wait. -/
  holepunchRetryAttempts : s.holepunchRetryAttempts.keys ⊆ s.awaitingHolepunch.keys
  /-- A peer to be redialed has a session. -/
  holepunchSessions : ∀ p ∈ s.pendingRetryRedial, p ∈ s.holepunchSessions.keys
  /-- A retry count lies between one and the maximum. -/
  retries : ∀ p k, s.holepunchRetryAttempts.get? p = some k → 1 ≤ k ∧ k ≤ 3

/-- The part of the invariant that is about one peer. -/
structure PeerView.Represents (v : PeerView) : Prop where
  /-- The list of pending intents is not empty. -/
  pending : v.pending ≠ some []
  /-- The list of waiting intents is not empty. -/
  awaiting : v.awaiting ≠ some []
  /-- A peer to be redialed has used a retry. -/
  redial : v.redial = true → v.retries.isSome = true
  /-- Retries are counted while intents wait. -/
  retries : v.retries.isSome = true → v.awaiting.isSome = true
  /-- A peer to be redialed has a session. -/
  session : v.redial = true → v.session.isSome = true
  /-- The retry count lies between one and the maximum. -/
  bounds : ∀ k, v.retries = some k → 1 ≤ k ∧ k ≤ maxRelayReconnectRetries

/-- The part of the invariant that is about one service. -/
structure ServiceView.Represents (v : ServiceView) : Prop where
  /-- The list of pending intents is not empty. -/
  pending : v.pending ≠ some []
  /-- The reserve of providers is not empty and has no repetitions. -/
  candidates : ∀ ps, v.candidates = some ps → ps ≠ [] ∧ ps.Nodup

/-- The invariant holds when its parts do. -/
theorem TunnelState.represents_iff {s : TunnelState} :
    s.Represents ↔ (∀ p, (s.view p).Represents) ∧ ∀ svc, (s.serviceView svc).Represents := by
  constructor
  · intro h
    refine ⟨fun p => ?_, fun svc => ?_⟩
    · refine ⟨fun hnil => h.pendingByPeer p [] hnil rfl, fun hnil => h.awaitingHolepunch p [] hnil rfl,
        fun hredial => ?_, fun hretries => ?_, fun hredial => ?_, fun k => h.retries p k⟩
      · exact FiniteMap.mem_keys.mp (h.pendingRetryRedial p (of_decide_eq_true hredial))
      · exact FiniteMap.mem_keys.mp (h.holepunchRetryAttempts (FiniteMap.mem_keys.mpr hretries))
      · have hsession := FiniteMap.mem_keys.mp (h.holepunchSessions p (of_decide_eq_true hredial))
        change ((s.holepunchSessions.get? p).map HolePunchSession.view).isSome = true
        rw [Option.isSome_map]
        exact hsession
    · exact ⟨fun hnil => h.pendingByService svc [] hnil rfl, h.serviceProviderCandidates svc⟩
  · rintro ⟨hpeers, hservices⟩
    refine ⟨?_, ?_, ?_, fun svc => (hservices svc).candidates, ?_, ?_, ?_,
      fun p => (hpeers p).bounds⟩
    · rintro p specs hget rfl
      exact (hpeers p).pending hget
    · rintro svc binds hget rfl
      exact (hservices svc).pending hget
    · rintro p specs hget rfl
      exact (hpeers p).awaiting hget
    · intro p hp
      exact FiniteMap.mem_keys.mpr ((hpeers p).redial (decide_eq_true hp))
    · intro p hp
      exact FiniteMap.mem_keys.mpr ((hpeers p).retries (FiniteMap.mem_keys.mp hp))
    · intro p hp
      have hsession : ((s.holepunchSessions.get? p).map HolePunchSession.view).isSome = true :=
        (hpeers p).session (decide_eq_true hp)
      rw [Option.isSome_map] at hsession
      exact FiniteMap.mem_keys.mpr hsession

/-! ## One step at a service -/

/-- A reserve that shrinks keeps its properties. -/
theorem Shrinks.represents {before after : Option (List PeerId)} (h : Shrinks before after)
    (hbefore : ∀ ps, before = some ps → ps ≠ [] ∧ ps.Nodup) :
    ∀ ps, after = some ps → ps ≠ [] ∧ ps.Nodup := by
  intro left hleft
  obtain ⟨all, hall, hsuffix, hne⟩ := h left hleft
  obtain ⟨hsome, hnodup⟩ := hbefore all hall
  exact ⟨hne hsome, hnodup.sublist hsuffix.sublist⟩

/-- A step keeps the invariant of a service. -/
theorem ServiceStep.represents {s : TunnelState} {svc : ServiceName} {e : Event} {v : ServiceView}
    {n : ℕ} (h : ServiceStep s svc e v n) (hs : (s.serviceView svc).Represents) :
    v.Represents := by
  cases h with
  | resolved _ _ hcandidates => exact ⟨by simp, fun ps hps => hcandidates ps hps⟩
  | @rerouted q reason binds candidates _ _ hcandidates =>
    refine ⟨?_, hcandidates.represents hs.candidates⟩
    unfold ServiceView.refill
    split
    · exact hs.pending
    · rename_i hbinds
      simp [hbinds]
  | _ => exact hs

/-! ## One step at a peer -/

/-- A list to which some intents are appended is not empty. -/
theorem append_ne_some_nil {before specs : List Intent} (h : specs ≠ []) :
    some (before ++ specs) ≠ some [] := by
  intro heq
  exact h (List.append_eq_nil_iff.mp (Option.some.inj heq)).2

/-- A step keeps the invariant of a peer if it hands no empty list over to it. -/
theorem PeerStep.represents {s : TunnelState} {p : PeerId} {e : Event} {v : PeerView}
    {cs : List Command} (h : PeerStep s p e v cs) (hs : (s.view p).Represents)
    (hservices : ∀ svc, (s.serviceView svc).Represents)
    (hhanded : ∀ q reason, e = .tunnelDialFailed q reason → v.pending ≠ some []) :
    v.Represents := by
  have hroute {w : PeerView} {specs : List Intent} (hw : w.Represents) (hspecs : specs ≠ []) :
      (w.route p specs).1.Represents := by
    unfold PeerView.route
    split
    · exact ⟨hw.pending, append_ne_some_nil hspecs, hw.redial, fun _ => rfl, hw.session,
        hw.bounds⟩
    · exact hw
  have hbinds {svc : ServiceName} {binds : List ServiceAddr}
      (hsvc : s.pendingByService.get? svc = some binds) : binds.map (svc, ·) ≠ [] := by
    intro hnil
    rw [List.map_eq_nil_iff.mp hnil] at hsvc
    exact (hservices svc).pending hsvc
  cases h with
  | handedOver => exact ⟨hhanded _ _ rfl, hs.awaiting, hs.redial, hs.retries, hs.session, hs.bounds⟩
  | resolved hsvc =>
    exact ⟨append_ne_some_nil (hbinds hsvc), hs.awaiting, hs.redial, hs.retries,
      hs.session, hs.bounds⟩
  | resolvedConnected hsvc => exact hroute hs (hbinds hsvc)
  | lookedUpConnected hpending =>
    refine hroute ⟨by simp, hs.awaiting, hs.redial, hs.retries, hs.session, hs.bounds⟩ ?_
    rintro rfl
    exact hs.pending hpending
  | dialFailedRetried =>
    exact ⟨hs.pending, hs.awaiting, hs.redial, hs.retries, fun _ => rfl, hs.bounds⟩
  | dialFailedRerouted =>
    exact ⟨by simp, hs.awaiting, hs.redial, hs.retries, hs.session, hs.bounds⟩
  | identified =>
    refine ⟨hs.pending, hs.awaiting, hs.redial, hs.retries, fun hredial => ?_, hs.bounds⟩
    rw [Option.isSome_map]
    exact hs.session hredial
  | relayed => exact ⟨hs.pending, hs.awaiting, hs.redial, hs.retries, hs.session, hs.bounds⟩
  | relayedQueued hpending =>
    refine ⟨by simp [PeerView.queue], append_ne_some_nil ?_, hs.redial, fun _ => rfl,
      hs.session, hs.bounds⟩
    rintro rfl
    exact hs.pending hpending
  | direct =>
    exact ⟨by simp [PeerView.connectDirect, PeerView.clear], by
      simp [PeerView.connectDirect, PeerView.clear], fun h => (by cases h), fun h => (by cases h),
      fun h => (by cases h), fun k h => by cases h⟩
  | started => exact ⟨hs.pending, hs.awaiting, hs.redial, hs.retries, fun _ => rfl, hs.bounds⟩
  | retriesExhausted =>
    exact ⟨hs.pending, by simp [PeerView.clear], fun h => (by cases h), fun h => (by cases h),
      fun h => (by cases h), fun k h => by cases h⟩
  | retryScheduled _ _ hawaiting hretries =>
    refine ⟨hs.pending, hs.awaiting, fun _ => rfl, fun _ => ?_, fun _ => rfl, fun k hk => ?_⟩
    · rw [hawaiting]
      rfl
    · cases hk
      omega
  | lostRedial =>
    exact ⟨hs.pending, hs.awaiting, fun h => (by cases h), hs.retries, fun h => (by cases h),
      hs.bounds⟩
  | lostAwaiting _ hawaiting =>
    refine ⟨append_ne_some_nil ?_, by simp [PeerView.clear, PeerView.assign],
      fun h => (by cases h), fun h => (by cases h), fun h => (by cases h), fun k h => by cases h⟩
    rintro rfl
    exact hs.awaiting hawaiting
  | lost =>
    exact ⟨hs.pending, hs.awaiting, fun h => (by cases h), fun h => (by cases h),
      fun h => (by cases h), fun k h => by cases h⟩
  | _ => exact hs

namespace TunnelState

variable {env : Env} {s : TunnelState}

/-- Whatever the loop over the intents of a failed peer hands to another peer is not empty. -/
theorem foldl_rerouteSpec_reassign_ne_nil {peer q : PeerId} {specs : List Intent} {acc : Reroute}
    (hinit : acc.reassignToPeer = ∅) :
    (specs.foldl (rerouteSpec peer) acc).reassignToPeer.get? q ≠ some [] := by
  refine foldl_rerouteSpec_induction (P := fun r => r.reassignToPeer.get? q ≠ some []) ?_ ?_ ?_
  · simp [hinit]
  · intro r candidates next spec _ _ hr
    by_cases hq : q = next
    · subst hq
      simp
    · dsimp only
      rw [FiniteMap.get?_extend_of_ne _ _ hq]
      exact hr
  · intro r candidates spec _ hr
    exact hr

/-- Rerouting leaves no peer with an empty list of pending intents. -/
theorem rerouteSpecsAfterDialFailure_pending_ne_nil {p : PeerId} (q : PeerId)
    (hs : s.pendingByPeer.get? p ≠ some []) :
    (s.rerouteSpecsAfterDialFailure env q).1.pendingByPeer.get? p ≠ some [] := by
  cases hpending : s.pendingByPeer.get? q with
  | none =>
    rw [rerouteSpecsAfterDialFailure_none hpending]
    exact hs
  | some specs =>
    have herased : (s.pendingByPeer.erase q).get? p ≠ some [] := by
      by_cases hp : p = q
      · subst hp
        simp
      · rw [FiniteMap.get?_erase_of_ne _ hp]
        exact hs
    have hreassign : (s.rerouteLoop q specs).reassignToPeer.get? p ≠ some [] :=
      foldl_rerouteSpec_reassign_ne_nil rfl
    rw [rerouteSpecsAfterDialFailure_state hpending]
    dsimp only
    rw [FiniteMap.get?_extendAll]
    cases hnew : (s.rerouteLoop q specs).reassignToPeer.get? p with
    | none => exact herased
    | some added =>
      refine append_ne_some_nil ?_
      rintro rfl
      exact hreassign hnew

/-- A failed dial leaves no peer with an empty list of pending intents. -/
theorem onTunnelDialFailed_pending_ne_nil {p : PeerId} (q : PeerId) (reason : String)
    (hs : s.pendingByPeer.get? p ≠ some []) :
    (s.onTunnelDialFailed env q reason).1.pendingByPeer.get? p ≠ some [] := by
  rcases s.onTunnelDialFailed_cases env q reason with ⟨_, heq⟩ | ⟨_, _, _, _, _, heq⟩ |
    ⟨_, _, _, _, _, _, _, heq⟩ | ⟨_, _, heq⟩
  · rw [heq]
    exact hs
  · rw [heq]
    exact hs
  · rw [heq]
    exact hs
  · rw [heq]
    exact rerouteSpecsAfterDialFailure_pending_ne_nil q hs

/-- Every event keeps the representation invariant. -/
theorem Represents.step (hs : s.Represents) (env : Env) (e : Event) :
    (s.transition env e).1.Represents := by
  obtain ⟨hpeers, hservices⟩ := represents_iff.mp hs
  apply represents_iff.mpr
  constructor
  · intro p
    refine (s.transition_refines env p e).represents (hpeers p) hservices ?_
    rintro q reason rfl
    exact onTunnelDialFailed_pending_ne_nil q reason (hpeers p).pending
  · intro svc
    exact (s.transition_refinesAtService env svc e).represents (hservices svc)

/-- Appending to an entry empties no entry. -/
theorem extend_ne_nil {K V : Type} [DecidableEq K] {m : FiniteMap K (List V)} {k k' : K} {v : V}
    (h : m.get? k' ≠ some []) : (m.extend k [v]).get? k' ≠ some [] := by
  rw [FiniteMap.get?_extend]
  split
  · simp
  · exact h

/-- Configuring a fresh machine establishes the representation invariant. -/
theorem represents_configured (calls : List ConfigCall) : (configured calls).Represents := by
  refine List.foldlRecOn calls ConfigCall.apply (motive := Represents) ?_ ?_
  · constructor <;> simp [new]
  · intro s hs call _
    cases call with
    | addPeerTunnel peer svc bind =>
      refine { hs with pendingByPeer := ?_ }
      rintro p specs hget rfl
      exact extend_ne_nil (fun hnil => hs.pendingByPeer p [] hnil rfl) hget
    | addServiceTunnel svc bind =>
      refine { hs with pendingByService := ?_ }
      rintro name binds hget rfl
      exact extend_ne_nil (fun hnil => hs.pendingByService name [] hnil rfl) hget
    | setNatMapping mapping => exact { hs with }

/-- **Representation invariant.** Whatever is configured and whatever happens, the maps of the
tunnel machine mean what later decisions take them to mean. -/
theorem represents_after (calls : List ConfigCall) (inputs : List (Env × Event)) :
    (machine.after (configured calls) inputs).Represents :=
  Mealy.Machine.invariant inputs (represents_configured calls) fun _ i hs => hs.step i.1 i.2

end TunnelState

end Punchgate
