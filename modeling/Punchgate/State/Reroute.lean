import Punchgate.State.Tunnel

/-!
# Rerouting after a failed dial

The loop of `reroute_specs_after_dial_failure` hands every intent of a failed peer to
the next candidate for its service, or back to its service when no candidate is left.
Here is what the loop leaves alone and where the intents end up.
-/

namespace Punchgate

namespace TunnelState

/-- Choosing a fallback provider changes the stored candidates only. -/
theorem nextFallbackProvider_state (s : TunnelState) (svc : ServiceName) (ex : PeerId) :
    ∃ candidates, (s.nextFallbackProvider svc ex).1 =
      { s with serviceProviderCandidates := candidates } := by
  unfold nextFallbackProvider
  split
  · exact ⟨s.serviceProviderCandidates, rfl⟩
  · split
    · exact ⟨_, rfl⟩
    · exact ⟨_, rfl⟩
    · exact ⟨_, rfl⟩

/-- The excluded peer is never popped from the candidates. -/
theorem popCandidate_ne {ex next : PeerId} {providers rest : List PeerId}
    (h : popCandidate ex providers = some (next, rest)) : next ≠ ex := by
  induction providers with
  | nil => cases h
  | cons p ps ih =>
    unfold popCandidate at h
    split at h
    · exact ih h
    · rename_i hne
      cases h
      exact hne

/-- A fallback provider is never the peer whose dial failed. -/
theorem nextFallbackProvider_ne {s : TunnelState} {svc : ServiceName} {ex next : PeerId}
    (h : (s.nextFallbackProvider svc ex).2 = some next) : next ≠ ex := by
  unfold nextFallbackProvider at h
  split at h
  · cases h
  · split at h
    · cases h
    · rename_i hpop
      cases h
      exact popCandidate_ne hpop
    · rename_i hpop
      cases h
      exact popCandidate_ne hpop

/-- One round of the loop hands the intent to another peer or back to its service. -/
theorem rerouteSpec_cases (peer : PeerId) (acc : Reroute) (spec : Intent) :
    (∃ candidates next, next ≠ peer ∧ rerouteSpec peer acc spec =
      { acc with
        state := { acc.state with serviceProviderCandidates := candidates }
        reassignToPeer := acc.reassignToPeer.extend next [spec] }) ∨
    ∃ candidates, rerouteSpec peer acc spec =
      { acc with
        state := { acc.state with
          serviceProviderCandidates := candidates
          pendingByService := acc.state.pendingByService.extend spec.1 [spec.2] }
        refreshServices := insert spec.1 acc.refreshServices } := by
  obtain ⟨candidates, hstate⟩ := acc.state.nextFallbackProvider_state spec.1 peer
  unfold rerouteSpec
  split
  · rename_i s next heq
    have hnext : next ≠ peer := nextFallbackProvider_ne (by rw [heq])
    rw [heq] at hstate
    subst hstate
    exact Or.inl ⟨candidates, next, hnext, rfl⟩
  · rename_i s heq
    rw [heq] at hstate
    subst hstate
    exact Or.inr ⟨candidates, rfl⟩

/-- What both kinds of round preserve holds after the loop. -/
theorem foldl_rerouteSpec_induction {P : Reroute → Prop} {peer : PeerId} {specs : List Intent}
    {acc : Reroute} (hinit : P acc)
    (hreassign : ∀ acc candidates next, ∀ spec ∈ specs, next ≠ peer → P acc →
      P { acc with
        state := { acc.state with serviceProviderCandidates := candidates }
        reassignToPeer := acc.reassignToPeer.extend next [spec] })
    (hreturn : ∀ acc candidates, ∀ spec ∈ specs, P acc →
      P { acc with
        state := { acc.state with
          serviceProviderCandidates := candidates
          pendingByService := acc.state.pendingByService.extend spec.1 [spec.2] }
        refreshServices := insert spec.1 acc.refreshServices }) :
    P (specs.foldl (rerouteSpec peer) acc) := by
  refine List.foldlRecOn specs (rerouteSpec peer) hinit fun acc hacc spec hspec => ?_
  rcases rerouteSpec_cases peer acc spec with ⟨candidates, next, hne, heq⟩ | ⟨candidates, heq⟩
  · rw [heq]
    exact hreassign acc candidates next spec hspec hne hacc
  · rw [heq]
    exact hreturn acc candidates spec hspec hacc

/-- The loop changes the intents by service and the stored candidates only. -/
theorem foldl_rerouteSpec_frame (peer : PeerId) (specs : List Intent) (acc : Reroute) :
    ∃ byService candidates, (specs.foldl (rerouteSpec peer) acc).state =
      { acc.state with
        pendingByService := byService, serviceProviderCandidates := candidates } := by
  refine foldl_rerouteSpec_induction
    (P := fun r => ∃ byService candidates, r.state =
      { acc.state with
        pendingByService := byService, serviceProviderCandidates := candidates })
    ⟨acc.state.pendingByService, acc.state.serviceProviderCandidates, rfl⟩ ?_ ?_
  · rintro r candidates next spec _ _ ⟨byService, _, heq⟩
    exact ⟨byService, candidates, by simp only [heq]⟩
  · rintro r candidates spec _ ⟨byService, _, heq⟩
    exact ⟨byService.extend spec.1 [spec.2], candidates, by simp only [heq]⟩

/-- Nothing is handed back to the peer whose dial failed. -/
theorem foldl_rerouteSpec_excludes {peer : PeerId} {specs : List Intent} {acc : Reroute}
    (hinit : acc.reassignToPeer.get? peer = none) :
    (specs.foldl (rerouteSpec peer) acc).reassignToPeer.get? peer = none := by
  refine foldl_rerouteSpec_induction (P := fun r => r.reassignToPeer.get? peer = none)
    hinit ?_ ?_
  · intro r candidates next spec _ hne hr
    simp only [FiniteMap.get?_extend_of_ne _ _ hne.symm, hr]
  · intro r candidates spec _ hr
    exact hr

/-- Only intents of the loop are handed to other peers. -/
theorem mem_foldl_rerouteSpec_reassign {peer q : PeerId} {specs : List Intent} {acc : Reroute}
    {spec : Intent} (hinit : acc.reassignToPeer = ∅)
    (h : spec ∈ (specs.foldl (rerouteSpec peer) acc).reassignToPeer.getD q []) :
    spec ∈ specs := by
  have hsub : ∀ spec ∈ (specs.foldl (rerouteSpec peer) acc).reassignToPeer.getD q [],
      spec ∈ specs := by
    refine foldl_rerouteSpec_induction
      (P := fun r => ∀ spec ∈ r.reassignToPeer.getD q [], spec ∈ specs) ?_ ?_ ?_
    · simp [hinit, FiniteMap.getD]
    · intro r candidates next spec' hspec' _ hr spec hmem
      by_cases hq : q = next
      · subst hq
        simp only [FiniteMap.getD, FiniteMap.get?_extend_self, Option.getD_some,
          List.mem_append, List.mem_singleton] at hmem
        rcases hmem with hmem | rfl
        · exact hr spec hmem
        · exact hspec'
      · rw [FiniteMap.getD, FiniteMap.get?_extend_of_ne _ _ hq] at hmem
        exact hr spec hmem
    · intro r candidates spec' _ hr
      exact hr
  exact hsub spec h

/-- What the loop adds to the intents by service comes from its own intents. -/
theorem mem_foldl_rerouteSpec_byService {peer : PeerId} {specs : List Intent} {acc : Reroute}
    {svc : ServiceName} {bind : ServiceAddr}
    (h : bind ∈ (specs.foldl (rerouteSpec peer) acc).state.pendingByService.getD svc []) :
    bind ∈ acc.state.pendingByService.getD svc [] ∨ (svc, bind) ∈ specs := by
  have hsub : ∀ bind ∈
      (specs.foldl (rerouteSpec peer) acc).state.pendingByService.getD svc [],
      bind ∈ acc.state.pendingByService.getD svc [] ∨ (svc, bind) ∈ specs := by
    refine foldl_rerouteSpec_induction
      (P := fun r => ∀ bind ∈ r.state.pendingByService.getD svc [],
        bind ∈ acc.state.pendingByService.getD svc [] ∨ (svc, bind) ∈ specs) ?_ ?_ ?_
    · exact fun bind hbind => Or.inl hbind
    · intro r candidates next spec _ _ hr
      exact hr
    · intro r candidates spec hspec hr bind hmem
      by_cases hsvc : svc = spec.1
      · subst hsvc
        simp only [FiniteMap.getD, FiniteMap.get?_extend_self, Option.getD_some,
          List.mem_append, List.mem_singleton] at hmem
        rcases hmem with hmem | rfl
        · exact hr bind hmem
        · exact Or.inr hspec
      · simp only [FiniteMap.getD, FiniteMap.get?_extend_of_ne _ _ hsvc] at hmem
        exact hr bind hmem
  exact hsub bind h

/-- Handing over reassigned intents appends them to the pending ones. -/
theorem assignToPeers_eq (s : TunnelState) (m : FiniteMap PeerId (List Intent))
    (order : Enumeration PeerId) :
    s.assignToPeers (m.entries order) =
      { s with pendingByPeer := s.pendingByPeer.extendAll m order } := by
  have hfold : ∀ (es : List (PeerId × List Intent)) (s : TunnelState), s.assignToPeers es =
      { s with pendingByPeer := es.foldl (fun m e => m.extend e.1 e.2) s.pendingByPeer } := by
    intro es
    induction es with
    | nil => exact fun s => rfl
    | cons e es ih => exact fun s => ih _
  exact hfold _ s

/-- The loop over the intents of a peer, started after they were taken out. -/
def rerouteLoop (s : TunnelState) (peer : PeerId) (specs : List Intent) : Reroute :=
  specs.foldl (rerouteSpec peer) ⟨{ s with pendingByPeer := s.pendingByPeer.erase peer }, ∅, ∅⟩

/-- Without pending intents nothing is rerouted. -/
theorem rerouteSpecsAfterDialFailure_none {env : Env} {s : TunnelState} {peer : PeerId}
    (h : s.pendingByPeer.get? peer = none) : s.rerouteSpecsAfterDialFailure env peer = (s, []) := by
  unfold rerouteSpecsAfterDialFailure
  rw [h]

/-- The state after rerouting: the loop changes intents by service and candidates, and
what it reassigned is appended to the pending intents of other peers. -/
theorem rerouteSpecsAfterDialFailure_state {env : Env} {s : TunnelState} {peer : PeerId}
    {specs : List Intent} (h : s.pendingByPeer.get? peer = some specs) :
    (s.rerouteSpecsAfterDialFailure env peer).1 =
      { s with
        pendingByPeer := (s.pendingByPeer.erase peer).extendAll
          (s.rerouteLoop peer specs).reassignToPeer env.peerOrder
        pendingByService := (s.rerouteLoop peer specs).state.pendingByService
        serviceProviderCandidates :=
          (s.rerouteLoop peer specs).state.serviceProviderCandidates } := by
  obtain ⟨byService, candidates, hframe⟩ := foldl_rerouteSpec_frame peer specs
    ⟨{ s with pendingByPeer := s.pendingByPeer.erase peer }, ∅, ∅⟩
  have hloop : (s.rerouteLoop peer specs).state =
      { s with
        pendingByPeer := s.pendingByPeer.erase peer
        pendingByService := byService
        serviceProviderCandidates := candidates } := hframe
  have hstate : (s.rerouteSpecsAfterDialFailure env peer).1 =
      (s.rerouteLoop peer specs).state.assignToPeers
        ((s.rerouteLoop peer specs).reassignToPeer.entries env.peerOrder) := by
    unfold rerouteSpecsAfterDialFailure
    rw [h]
    rfl
  rw [hstate, assignToPeers_eq, hloop]

/-- The commands after rerouting: lookups of the peers that got intents, and provider queries
for the services that got some back. -/
theorem rerouteSpecsAfterDialFailure_commands {env : Env} {s : TunnelState} {peer : PeerId}
    {specs : List Intent} (h : s.pendingByPeer.get? peer = some specs) :
    (s.rerouteSpecsAfterDialFailure env peer).2 =
      (((s.rerouteLoop peer specs).reassignToPeer.entries env.peerOrder).map fun e =>
          .dhtLookupPeer e.1) ++
        (env.serviceOrder.toList (s.rerouteLoop peer specs).refreshServices).map .getProviders := by
  unfold rerouteSpecsAfterDialFailure
  rw [h]
  rfl

/-- Rerouting asks for lookups only. -/
theorem mem_rerouteSpecsAfterDialFailure_commands {env : Env} {s : TunnelState} {peer : PeerId}
    {c : Command} (h : c ∈ (s.rerouteSpecsAfterDialFailure env peer).2) :
    (∃ q, c = .dhtLookupPeer q) ∨ ∃ svc, c = .getProviders svc := by
  unfold rerouteSpecsAfterDialFailure at h
  split at h
  · cases h
  · rcases List.mem_append.mp h with h | h
    · obtain ⟨e, _, rfl⟩ := List.mem_map.mp h
      exact Or.inl ⟨e.1, rfl⟩
    · obtain ⟨svc, _, rfl⟩ := List.mem_map.mp h
      exact Or.inr ⟨svc, rfl⟩

end TunnelState

end Punchgate
