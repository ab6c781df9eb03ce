import Punchgate.State.App
import Punchgate.State.Refinement

/-!
# Tunnels pinned to a peer

A tunnel configured with a peer id is meant for that peer. Intents carry no trace of
how they were configured, so a failed dial reroutes a pinned intent like any other.
As long as no step reroutes it, it is spawned at its own peer only.
-/

namespace Punchgate

/-- A configuration call does not request the intent for anything but the peer. -/
def ConfigCall.Respects (p : PeerId) (spec : Intent) : ConfigCall → Prop
  | .addPeerTunnel q svc bind => (svc, bind) = spec → q = p
  | .addServiceTunnel svc bind => (svc, bind) ≠ spec
  | .setNatMapping _ => True

instance (p : PeerId) (spec : Intent) : DecidablePred (ConfigCall.Respects p spec)
  | .addPeerTunnel q svc bind => inferInstanceAs (Decidable ((svc, bind) = spec → q = p))
  | .addServiceTunnel svc bind => inferInstanceAs (Decidable ((svc, bind) ≠ spec))
  | .setNatMapping _ => isTrue trivial

/-- An intent is configured for one peer only. -/
def PinnedTo (calls : List ConfigCall) (p : PeerId) (spec : Intent) : Prop :=
  ∀ call ∈ calls, call.Respects p spec

instance (calls : List ConfigCall) (p : PeerId) (spec : Intent) :
    Decidable (PinnedTo calls p spec) :=
  inferInstanceAs (Decidable (∀ call ∈ calls, call.Respects p spec))

namespace TunnelState

/-- An event takes the intent away from the peer it is pending for. -/
def ReroutesIntent (spec : Intent) (s : TunnelState) : Event → Prop
  | .tunnelDialFailed q reason => spec ∈ s.pendingByPeer.getD q [] ∧ s.ReroutesAfter q reason
  | _ => False

instance (spec : Intent) (s : TunnelState) : DecidablePred (ReroutesIntent spec s) := fun e => by
  unfold ReroutesIntent
  split <;> infer_instance

/-- The intent is not held by anyone but its peer. -/
structure HeldOnlyFor (p : PeerId) (spec : Intent) (s : TunnelState) : Prop where
  /-- Where it is pending. -/
  pending : ∀ q, spec ∈ s.pendingByPeer.getD q [] → q = p
  /-- Where it waits for a direct connection. -/
  awaiting : ∀ q, spec ∈ s.awaitingHolepunch.getD q [] → q = p
  /-- It is not among the intents by service. -/
  service : spec.2 ∉ s.pendingByService.getD spec.1 []

end TunnelState

/-- A view holds an intent, pending or awaiting a direct connection. -/
def PeerView.Holds (v : PeerView) (spec : Intent) : Prop :=
  spec ∈ v.pending.getD [] ∨ spec ∈ v.awaiting.getD []

/-- Routing keeps or spawns the held intents and the routed ones. -/
theorem PeerView.route_holds {q : PeerId} {v : PeerView} {specs : List Intent} {spec : Intent}
    (h : (v.route q specs).1.Holds spec ∨
      .spawnTunnel q spec.1 spec.2 ∈ (v.route q specs).2) :
    v.Holds spec ∨ spec ∈ specs := by
  unfold PeerView.route at h
  split at h
  · rcases h with (h | h) | h
    · exact Or.inl (Or.inl h)
    · rcases List.mem_append.mp h with h | h
      · exact Or.inl (Or.inr h)
      · exact Or.inr h
    · cases h
  · rcases h with h | h
    · exact Or.inl h
    · exact Or.inr (mem_spawnTunnels.mp h).2

/-- What a peer holds or spawns after an event it held before, received from the peer
whose dial failed, or received with the answer of a provider query. -/
theorem PeerStep.holds {s : TunnelState} {q : PeerId} {e : Event} {v : PeerView}
    {cs : List Command} {spec : Intent} (h : PeerStep s q e v cs)
    (hheld : v.Holds spec ∨ .spawnTunnel q spec.1 spec.2 ∈ cs) :
    (s.view q).Holds spec ∨ s.ReroutesIntent spec e ∨
      spec.2 ∈ s.pendingByService.getD spec.1 [] := by
  have hbinds {svc : ServiceName} {binds : List ServiceAddr}
      (hsvc : s.pendingByService.get? svc = some binds)
      (hmem : spec ∈ binds.map fun bind => (svc, bind)) :
      spec.2 ∈ s.pendingByService.getD spec.1 [] := by
    obtain ⟨bind, hbind, rfl⟩ := List.mem_map.mp hmem
    simpa [FiniteMap.getD, hsvc] using hbind
  have hassign {specs : List Intent} {v : PeerView} (h : (v.assign specs).Holds spec) :
      v.Holds spec ∨ spec ∈ specs := by
    rcases h with h | h
    · rcases List.mem_append.mp h with h | h
      · exact Or.inl (Or.inl h)
      · exact Or.inr h
    · exact Or.inl (Or.inr h)
  have hkeep {v : PeerView} (h : v.Holds spec) (hpending : v.pending = (s.view q).pending)
      (hawaiting : v.awaiting = (s.view q).awaiting) : (s.view q).Holds spec := by
    rwa [PeerView.Holds, hpending, hawaiting] at h
  cases h with
  | idle | lookedUpUnneeded | dialFailedIgnored | dialFailedSuppressed | failureIgnored | lostOne =>
    rcases hheld with h | h
    · exact Or.inl h
    · cases h
  | identified | relayed | started =>
    rcases hheld with h | h
    · exact Or.inl (hkeep h rfl rfl)
    · cases h
  | handedOver hq hspecs hreroute =>
    rcases hheld with h | h
    · rcases hassign h with h | h
      · exact Or.inl h
      · exact Or.inr (Or.inl ⟨hspecs spec h, hreroute⟩)
    · cases h
  | resolved hsvc =>
    rcases hheld with h | h
    · rcases hassign h with h | h
      · exact Or.inl h
      · exact Or.inr (Or.inr (hbinds hsvc h))
    · cases h
  | resolvedConnected hsvc =>
    rcases PeerView.route_holds hheld with h | h
    · exact Or.inl h
    · exact Or.inr (Or.inr (hbinds hsvc h))
  | lookedUpConnected hpending =>
    rcases PeerView.route_holds hheld with h | h
    · rcases h with h | h
      · cases h
      · exact Or.inl (Or.inr h)
    · exact Or.inl (Or.inl (by simpa [hpending] using h))
  | lookedUp =>
    rcases hheld with h | h
    · exact Or.inl h
    · split at h <;> simp at h
  | dialFailedRetried _ _ _ _ hc =>
    rcases hheld with h | h
    · exact Or.inl (hkeep h rfl rfl)
    · rw [← List.mem_singleton.mp h] at hc
      cases hc
  | dialFailedRerouted =>
    rcases hheld with h | h
    · rcases h with h | h
      · cases h
      · exact Or.inl (Or.inr h)
    · cases h
  | relayedQueued hpending =>
    rcases hheld with h | h
    · rcases h with h | h
      · cases h
      · rcases List.mem_append.mp h with h | h
        · exact Or.inl (Or.inr h)
        · exact Or.inl (Or.inl (by simpa [hpending] using h))
    · cases h
  | direct =>
    rcases hheld with h | h
    · rcases h with h | h <;> cases h
    · exact Or.inl (List.mem_append.mp (mem_spawnTunnels.mp h).2)
  | retriesExhausted _ _ hawaiting =>
    rcases hheld with h | h
    · rcases h with h | h
      · exact Or.inl (Or.inl h)
      · cases h
    · exact Or.inl (Or.inr (by simpa [hawaiting] using (mem_spawnTunnels.mp h).2))
  | retryScheduled =>
    rcases hheld with h | h
    · exact Or.inl (hkeep h rfl rfl)
    · simp at h
  | lostRedial _ hc =>
    rcases hheld with h | h
    · exact Or.inl (hkeep h rfl rfl)
    · rw [← List.mem_singleton.mp h] at hc
      cases hc
  | lostAwaiting _ hawaiting =>
    rcases hheld with h | h
    · rcases hassign h with h | h
      · rcases h with h | h
        · exact Or.inl (Or.inl h)
        · cases h
      · exact Or.inl (Or.inr (by simpa [hawaiting] using h))
    · simp at h
  | lost =>
    rcases hheld with h | h
    · exact Or.inl (hkeep h rfl rfl)
    · cases h

namespace TunnelState

variable {env : Env} {s : TunnelState} {p q : PeerId} {e : Event} {spec : Intent}

/-- Intents by service come from the ones before or from a reroute. -/
theorem mem_transition_pendingByService
    (h : spec.2 ∈ (s.transition env e).1.pendingByService.getD spec.1 []) :
    spec.2 ∈ s.pendingByService.getD spec.1 [] ∨ s.ReroutesIntent spec e := by
  by_cases hresolved : ∃ svc providers, e = .dhtServiceResolved svc providers
  · obtain ⟨svc, providers, rfl⟩ := hresolved
    have hsub : ∀ t : TunnelState, t.pendingByService = s.pendingByService.erase svc →
        spec.2 ∈ t.pendingByService.getD spec.1 [] →
        spec.2 ∈ s.pendingByService.getD spec.1 [] := by
      intro t ht hmem
      rw [ht] at hmem
      by_cases hsvc : spec.1 = svc
      · simp [FiniteMap.getD, hsvc] at hmem
      · simpa [FiniteMap.getD, hsvc] using hmem
    refine Or.inl ?_
    simp only [transition, onDhtServiceResolved] at h
    split at h
    · exact h
    · rename_i binds hbinds
      split at h
      · exact h
      · rename_i provider connected fallback _
        obtain ⟨candidates, hstore⟩ := storeProviderCandidates_eq
          { s with pendingByService := s.pendingByService.erase svc } svc (fallback.map Prod.fst)
        rw [hstore] at h
        unfold routeConnectedPeer at h
        split at h
        · split at h
          · exact hsub _ rfl h
          · exact hsub _ rfl h
        · exact hsub _ rfl h
  by_cases hfailed : ∃ q reason, e = .tunnelDialFailed q reason
  · obtain ⟨q, reason, rfl⟩ := hfailed
    rcases s.onTunnelDialFailed_cases env q reason with ⟨_, heq⟩ | ⟨_, _, _, _, _, heq⟩ |
      ⟨session, c, _, _, _, _, _, heq⟩ | ⟨_, hbranch, heq⟩
    · rw [transition, heq] at h
      exact Or.inl h
    · rw [transition, heq] at h
      exact Or.inl h
    · rw [transition, heq] at h
      exact Or.inl h
    · rw [transition, heq] at h
      cases hpending : s.pendingByPeer.get? q with
      | none =>
        rw [rerouteSpecsAfterDialFailure_none hpending] at h
        exact Or.inl h
      | some specs =>
        rw [rerouteSpecsAfterDialFailure_state hpending] at h
        rcases mem_foldl_rerouteSpec_byService h with h | h
        · exact Or.inl h
        · refine Or.inr ⟨by simpa [FiniteMap.getD, hpending] using h, ?_⟩
          exact reroutesAfter_of_branch hbranch
  · have hsame := sameServices_transition env s
      (fun svc providers heq => hresolved ⟨svc, providers, heq⟩)
      fun q reason heq => hfailed ⟨q, reason, heq⟩
    rw [hsame.service] at h
    exact Or.inl h

/-- A configured machine holds a pinned intent for its peer only. -/
theorem heldOnlyFor_configured {calls : List ConfigCall} (h : PinnedTo calls p spec) :
    HeldOnlyFor p spec (configured calls) := by
  have hcalls : ∀ s : TunnelState, HeldOnlyFor p spec s →
      HeldOnlyFor p spec (calls.foldl ConfigCall.apply s) := by
    induction calls with
    | nil => exact fun s hs => hs
    | cons call calls ih =>
      intro s hs
      have htail : PinnedTo calls p spec := fun c hc => h c (List.mem_cons_of_mem _ hc)
      have hcall : call.Respects p spec := h call (by simp)
      refine ih htail _ ?_
      cases call with
      | addPeerTunnel r svc bind =>
        refine ⟨fun q hq => ?_, hs.awaiting, hs.service⟩
        by_cases hqr : q = r
        · subst hqr
          simp only [ConfigCall.apply, addPeerTunnel, FiniteMap.getD,
            FiniteMap.get?_extend_self, Option.getD_some, List.mem_append,
            List.mem_singleton] at hq
          rcases hq with hq | hq
          · exact hs.pending q hq
          · exact hcall hq.symm
        · simp only [ConfigCall.apply, addPeerTunnel, FiniteMap.getD,
            FiniteMap.get?_extend_of_ne _ _ hqr] at hq
          exact hs.pending q hq
      | addServiceTunnel svc bind =>
        refine ⟨hs.pending, hs.awaiting, fun hmem => ?_⟩
        by_cases hsvc : spec.1 = svc
        · subst hsvc
          simp only [ConfigCall.apply, addServiceTunnel, FiniteMap.getD,
            FiniteMap.get?_extend_self, Option.getD_some, List.mem_append,
            List.mem_singleton] at hmem
          rcases hmem with hmem | hmem
          · exact hs.service hmem
          · exact hcall (by rw [← hmem])
        · simp only [ConfigCall.apply, addServiceTunnel, FiniteMap.getD,
            FiniteMap.get?_extend_of_ne _ _ hsvc] at hmem
          exact hs.service hmem
      | setNatMapping mapping => exact ⟨hs.pending, hs.awaiting, hs.service⟩
  refine hcalls new ⟨fun q hq => ?_, fun q hq => ?_, fun hmem => ?_⟩
  · simp [new, FiniteMap.getD] at hq
  · simp [new, FiniteMap.getD] at hq
  · simp [new, FiniteMap.getD] at hmem

/-- **Step.** Unless the event reroutes the intent, it stays with its peer and is spawned
at that peer only. -/
theorem HeldOnlyFor.step (hs : HeldOnlyFor p spec s) (he : ¬s.ReroutesIntent spec e) :
    HeldOnlyFor p spec (s.transition env e).1 ∧
      ∀ q, .spawnTunnel q spec.1 spec.2 ∈ (s.transition env e).2 → q = p := by
  have hpeer (q : PeerId) (h : ((s.transition env e).1.view q).Holds spec ∨
      .spawnTunnel q spec.1 spec.2 ∈ commandsFor q (s.transition env e).2) : q = p := by
    rcases (s.transition_refines env q e).holds h with (h | h) | h | h
    · exact hs.pending q h
    · exact hs.awaiting q h
    · exact absurd h he
    · exact absurd h hs.service
  refine ⟨⟨fun q h => ?_, fun q h => ?_, fun h => ?_⟩, fun q h => ?_⟩
  · exact hpeer q (Or.inl (Or.inl h))
  · exact hpeer q (Or.inl (Or.inr h))
  · rcases mem_transition_pendingByService h with h | h
    · exact hs.service h
    · exact he h
  · exact hpeer q (Or.inr ((mem_commandsFor rfl).mpr h))

/-- **Pinned tunnels stay pinned** in every run that never reroutes the intent after a
failed dial: the tunnel is spawned at its configured peer only. -/
theorem pinned_spawned_at_peer {calls : List ConfigCall} {inputs : List (Env × Event)}
    {svc : ServiceName} {bind : ServiceAddr} (hpin : PinnedTo calls p (svc, bind))
    (hrun : machine.Guarded (fun s i => ¬s.ReroutesIntent (svc, bind) i.2)
      (configured calls) inputs) :
    ∀ q, .spawnTunnel q svc bind ∈ machine.outputs (configured calls) inputs → q = p := by
  have hall := hrun.forall_outputs (P := HeldOnlyFor p (svc, bind))
    (Q := fun c => ∀ q, c = .spawnTunnel q svc bind → q = p) (heldOnlyFor_configured hpin)
    (fun s i hs hi => (hs.step hi).1) fun s i hs hi c hc q heq => by
      subst heq
      exact (hs.step hi).2 q hc
  exact fun q hq => hall _ hq q rfl

/-- A pinned tunnel whose peer is reached is spawned there, in a run without reroute. -/
theorem pinned_spawned_at_peer_direct :
    PinnedTo [webTunnel] ⟨1⟩ webIntent ∧
      ∀ q, .spawnTunnel q webIntent.1 webIntent.2 ∈ machine.outputs (configured [webTunnel])
        [(Env.sorted, .dhtPeerLookupComplete ⟨1⟩ false),
          (Env.sorted, .tunnelPeerConnected ⟨1⟩ false)] → q = ⟨1⟩ :=
  ⟨by decide, pinned_spawned_at_peer (by decide) (by decide)⟩

/-- A failed dial of the pinned peer hands its tunnel to whichever provider of the same
service name is found next. -/
theorem pinned_spawned_elsewhere :
    PinnedTo [webTunnel] ⟨1⟩ webIntent ∧
      .spawnTunnel ⟨2⟩ webIntent.1 webIntent.2 ∈ machine.outputs (configured [webTunnel])
        [(Env.sorted, .tunnelDialFailed ⟨1⟩ "timeout"),
          (Env.sorted, .dhtServiceResolved webIntent.1 [(⟨2⟩, true)])] := by
  decide

end TunnelState

end Punchgate
