import Punchgate.State.Composition
import Punchgate.State.Conservation
import Punchgate.State.Pinning
import Punchgate.State.Service

/-!
# Where tunnels lead

An intent changes its peer when a dial fails or when providers of its service are found. Whichever
way it goes, a tunnel is opened to the peer that it was configured for, or to one that the answer
of a provider query for its own service has named before.
-/

namespace Punchgate

/-- An event names a peer as a provider of a service. -/
def Event.Names (svc : ServiceName) (q : PeerId) : Event → Prop
  | .dhtServiceResolved name providers => name = svc ∧ q ∈ providers.map Prod.fst
  | _ => False

/-- Some event of a run names a peer as a provider of a service. -/
def NamedIn (inputs : List (Env × Event)) (svc : ServiceName) (q : PeerId) : Prop :=
  ∃ i ∈ inputs, i.2.Names svc q

/-- An event that hands nothing over leaves at a peer no intents, held or spawned, that the peer
did not hold before. -/
theorem PeerStep.holds_before {s : TunnelState} {q : PeerId} {e : Event} {v : PeerView}
    {cs : List Command} {spec : Intent} (h : PeerStep s q e v cs) (he : e.handsOver = false)
    (hheld : v.Holds spec ∨ .spawnTunnel q spec.1 spec.2 ∈ cs) : (s.view q).Holds spec := by
  have hkeep {v : PeerView} {cs : List Command} (hcs : .spawnTunnel q spec.1 spec.2 ∉ cs)
      (hpending : v.pending = (s.view q).pending) (hawaiting : v.awaiting = (s.view q).awaiting)
      (hheld : v.Holds spec ∨ .spawnTunnel q spec.1 spec.2 ∈ cs) : (s.view q).Holds spec := by
    have hv := hheld.resolve_right hcs
    rwa [PeerView.Holds, hpending, hawaiting] at hv
  have hdial {c : Command} (hc : c.dials q = true) : .spawnTunnel q spec.1 spec.2 ∉ [c] := by
    intro hmem
    rw [← List.mem_singleton.mp hmem] at hc
    cases hc
  cases h with
  | handedOver | resolved | resolvedConnected | dialFailedIgnored | dialFailedSuppressed
  | dialFailedRetried | dialFailedRerouted => cases he
  | idle | lookedUpUnneeded | failureIgnored | lostOne | identified | relayed | started | lost =>
    exact hkeep List.not_mem_nil rfl rfl hheld
  | lookedUpConnected hpending =>
    rcases PeerView.route_holds hheld with (h | h) | h
    · cases h
    · exact Or.inr h
    · exact Or.inl (by simpa [hpending] using h)
  | lookedUp =>
    refine hkeep ?_ rfl rfl hheld
    split <;> simp
  | relayedQueued hpending =>
    rcases hheld with (h | h) | h
    · cases h
    · rcases List.mem_append.mp h with h | h
      · exact Or.inr h
      · exact Or.inl (by simpa [hpending] using h)
    · cases h
  | direct =>
    rcases hheld with (h | h) | h
    · cases h
    · cases h
    · exact List.mem_append.mp (mem_spawnTunnels.mp h).2
  | retriesExhausted _ _ hawaiting =>
    rcases hheld with (h | h) | h
    · exact Or.inl h
    · cases h
    · exact Or.inr (by simpa [hawaiting] using (mem_spawnTunnels.mp h).2)
  | retryScheduled => exact hkeep (by simp) rfl rfl hheld
  | lostRedial _ hc => exact hkeep (hdial hc) rfl rfl hheld
  | lostAwaiting _ hawaiting =>
    rcases hheld with (h | h) | h
    · rcases List.mem_append.mp h with h | h
      · exact Or.inl h
      · exact Or.inr (by simpa [hawaiting] using h)
    · cases h
    · simp at h

/-- An answer hands intents of its own service to a provider that it names. -/
theorem PeerStep.holds_resolved {s : TunnelState} {q : PeerId} {v : PeerView} {cs : List Command}
    {spec : Intent} {name : ServiceName} {providers : List (PeerId × Bool)}
    (h : PeerStep s q (.dhtServiceResolved name providers) v cs)
    (hheld : v.Holds spec ∨ .spawnTunnel q spec.1 spec.2 ∈ cs) :
    (s.view q).Holds spec ∨ spec.1 = name ∧ q ∈ providers.map Prod.fst := by
  have hname {binds : List ServiceAddr} (hmem : spec ∈ binds.map fun bind => (name, bind)) :
      spec.1 = name := by
    obtain ⟨bind, -, rfl⟩ := List.mem_map.mp hmem
    rfl
  cases h with
  | idle => exact Or.inl (hheld.resolve_right List.not_mem_nil)
  | resolved =>
    rcases hheld with (h | h) | h
    · rcases List.mem_append.mp h with h | h
      · exact Or.inl (Or.inl h)
      · exact Or.inr ⟨hname h, List.mem_cons_self⟩
    · exact Or.inl (Or.inr h)
    · cases h
  | resolvedConnected =>
    exact (PeerView.route_holds hheld).imp_right fun h => ⟨hname h, List.mem_cons_self⟩
  | failureIgnored he => cases he
  | retriesExhausted he => cases he
  | retryScheduled he => cases he

/-- What deduplication keeps was there. -/
theorem mem_of_mem_dedupBy {α β : Type} [DecidableEq β] {key : α → β} {seen : List β} {xs : List α}
    {x : α} (h : x ∈ dedupBy key seen xs) : x ∈ xs := by
  induction xs generalizing seen with
  | nil => exact h
  | cons y ys ih =>
    unfold dedupBy at h
    split at h
    · exact List.mem_cons_of_mem y (ih h)
    · rcases List.mem_cons.mp h with rfl | h
      · exact List.mem_cons_self
      · exact List.mem_cons_of_mem y (ih h)

namespace TunnelState

/-- Intents are held for their own peers or for named providers of their services, and the
providers in reserve are named ones. -/
structure LeadsTo (own : PeerId → Intent → Prop) (named : ServiceName → PeerId → Prop)
    (s : TunnelState) : Prop where
  /-- What is held for a peer. -/
  held : ∀ q spec, (s.view q).Holds spec → own q spec ∨ named spec.1 q
  /-- What is kept in reserve. -/
  reserve : ∀ svc q, q ∈ s.serviceProviderCandidates.getD svc [] → named svc q

variable {env : Env} {s : TunnelState} {q : PeerId} {e : Event} {spec : Intent}
  {own : PeerId → Intent → Prop} {named : ServiceName → PeerId → Prop}

/-- A popped candidate is one of the candidates. -/
theorem popCandidate_mem {ex next : PeerId} {providers rest : List PeerId}
    (h : popCandidate ex providers = some (next, rest)) : next ∈ providers := by
  induction providers with
  | nil => cases h
  | cons p ps ih =>
    unfold popCandidate at h
    split at h
    · exact List.mem_cons_of_mem p (ih h)
    · cases h
      exact List.mem_cons_self

/-- A fallback provider was kept in reserve for the service. -/
theorem nextFallbackProvider_mem {svc : ServiceName} {ex next : PeerId}
    (h : (s.nextFallbackProvider svc ex).2 = some next) :
    next ∈ s.serviceProviderCandidates.getD svc [] := by
  unfold nextFallbackProvider at h
  cases hget : s.serviceProviderCandidates.get? svc with
  | none =>
    rw [hget] at h
    cases h
  | some providers =>
    rw [hget] at h
    rw [FiniteMap.getD, hget]
    dsimp only at h
    split at h
    · cases h
    · rename_i hpop
      cases h
      exact popCandidate_mem hpop
    · rename_i hpop
      cases h
      exact popCandidate_mem hpop

/-- A reserve that shrinks has no new members. -/
theorem mem_of_shrinks {before after : Option (List PeerId)} (h : Shrinks before after)
    (hq : q ∈ after.getD []) : q ∈ before.getD [] := by
  cases after with
  | none => cases hq
  | some left =>
    obtain ⟨all, hall, hsuffix, -⟩ := h left rfl
    rw [Option.mem_def.mp hall]
    exact hsuffix.subset hq

/-- The loop over the intents of a failed peer hands them to named providers. -/
theorem foldl_rerouteSpec_named (peer : PeerId) (specs : List Intent) (acc : Reroute)
    (hreserve : ∀ svc q, q ∈ acc.state.serviceProviderCandidates.getD svc [] → named svc q)
    (hreassign : ∀ q, ∀ spec ∈ acc.reassignToPeer.getD q [], named spec.1 q) :
    ∀ q, ∀ spec ∈ (specs.foldl (rerouteSpec peer) acc).reassignToPeer.getD q [],
      named spec.1 q := by
  induction specs generalizing acc with
  | nil => exact hreassign
  | cons spec specs ih =>
    have hshrinks (svc : ServiceName) := foldl_rerouteSpec_shrinks peer [spec] acc svc
    refine ih _ (fun svc q hq => hreserve svc q (mem_of_shrinks (hshrinks svc) hq)) ?_
    intro q spec' hspec'
    unfold rerouteSpec at hspec'
    split at hspec'
    · rename_i state next hnext
      by_cases hq : q = next
      · subst hq
        simp only [FiniteMap.getD, FiniteMap.get?_extend_self, Option.getD_some, List.mem_append,
          List.mem_singleton] at hspec'
        rcases hspec' with hspec' | rfl
        · exact hreassign q spec' hspec'
        · exact hreserve spec'.1 q (nextFallbackProvider_mem (by rw [hnext]))
      · simp only [FiniteMap.getD, FiniteMap.get?_extend_of_ne _ _ hq] at hspec'
        exact hreassign q spec' hspec'
    · exact hreassign q spec' hspec'

/-- Rerouting moves intents to named providers only. -/
theorem LeadsTo.rerouteSpecsAfterDialFailure (hs : LeadsTo own named s) (env : Env)
    (peer : PeerId) : LeadsTo own named (s.rerouteSpecsAfterDialFailure env peer).1 := by
  cases hpending : s.pendingByPeer.get? peer with
  | none =>
    rw [rerouteSpecsAfterDialFailure_none hpending]
    exact hs
  | some specs =>
    rw [rerouteSpecsAfterDialFailure_state hpending]
    constructor
    case held =>
      rintro q spec (hmem | hmem)
      · change spec ∈ (((s.pendingByPeer.erase peer).extendAll
          (s.rerouteLoop peer specs).reassignToPeer env.peerOrder).get? q).getD [] at hmem
        rw [FiniteMap.get?_extendAll] at hmem
        have hleft : spec ∈ (s.pendingByPeer.erase peer).getD q [] → own q spec ∨ named spec.1 q := by
          intro hleft
          refine hs.held q spec (Or.inl ?_)
          by_cases hq : q = peer
          · subst hq
            simp [FiniteMap.getD] at hleft
          · rwa [FiniteMap.getD, FiniteMap.get?_erase_of_ne _ hq] at hleft
        cases hmoved : (s.rerouteLoop peer specs).reassignToPeer.get? q with
        | none =>
          rw [hmoved] at hmem
          exact hleft hmem
        | some moved =>
          rw [hmoved] at hmem
          rcases List.mem_append.mp hmem with hmem | hmem
          · exact hleft hmem
          · refine Or.inr (foldl_rerouteSpec_named peer specs
              ⟨{ s with pendingByPeer := s.pendingByPeer.erase peer }, ∅, ∅⟩ hs.reserve
              (by simp [FiniteMap.getD]) q spec ?_)
            change spec ∈ (s.rerouteLoop peer specs).reassignToPeer.getD q []
            rwa [FiniteMap.getD, hmoved]
      · exact hs.held q spec (Or.inr hmem)
    case reserve =>
      intro svc q hq
      exact hs.reserve svc q (mem_of_shrinks (foldl_rerouteSpec_shrinks peer specs
        ⟨{ s with pendingByPeer := s.pendingByPeer.erase peer }, ∅, ∅⟩ svc) hq)

/-- The providers kept in reserve for a service are old ones, or among those to be stored. -/
theorem mem_storeProviderCandidates {svc name : ServiceName} {ps : List PeerId}
    (h : q ∈ (s.storeProviderCandidates name ps).serviceProviderCandidates.getD svc []) :
    q ∈ s.serviceProviderCandidates.getD svc [] ∨ svc = name ∧ q ∈ ps := by
  by_cases hsvc : svc = name
  · subst hsvc
    refine Or.inr ⟨rfl, ?_⟩
    unfold storeProviderCandidates at h
    split at h
    · simp [FiniteMap.getD] at h
    · rename_i p rest hdedup
      simp only [FiniteMap.getD, FiniteMap.get?_insert_self, Option.getD_some] at h
      rw [← hdedup] at h
      exact mem_of_mem_dedupBy h
  · rw [FiniteMap.getD, (storeProviderCandidates_spec s name ps).2.1 svc hsvc] at h
    exact Or.inl h

/-- An answer puts in reserve only providers that it names. -/
theorem mem_onDhtServiceResolved_reserve {svc name : ServiceName} {providers : List (PeerId × Bool)}
    (h : q ∈ (s.onDhtServiceResolved name providers).1.serviceProviderCandidates.getD svc []) :
    q ∈ s.serviceProviderCandidates.getD svc [] ∨ svc = name ∧ q ∈ providers.map Prod.fst := by
  unfold onDhtServiceResolved at h
  split at h
  · exact Or.inl h
  · split at h
    · exact Or.inl h
    · rename_i provider connected fallback hdedup
      have hstored : q ∈ (storeProviderCandidates
          { s with pendingByService := s.pendingByService.erase name } name
          (fallback.map Prod.fst)).serviceProviderCandidates.getD svc [] := by
        dsimp only at h
        split at h
        · rwa [(routeConnectedPeer_frame_service svc _ _ _).2.1] at h
        · exact h
      refine (mem_storeProviderCandidates hstored).imp_right fun ⟨hsvc, hq⟩ => ⟨hsvc, ?_⟩
      obtain ⟨c, hc, rfl⟩ := List.mem_map.mp hq
      have hmem : c ∈ dedupProviderCandidates providers := by
        rw [hdedup]
        exact List.mem_cons_of_mem _ hc
      exact List.mem_map_of_mem (mem_of_mem_dedupBy hmem)

/-- **Step.** If the providers that an event names are named ones, then intents stay with their own
peers and with named providers, and so do the tunnels that are opened. -/
theorem LeadsTo.step (hs : LeadsTo own named s) (env : Env)
    (he : ∀ svc q, e.Names svc q → named svc q) :
    LeadsTo own named (s.transition env e).1 ∧
      ∀ q spec, .spawnTunnel q spec.1 spec.2 ∈ (s.transition env e).2 →
        own q spec ∨ named spec.1 q := by
  -- what a peer holds or opens after the step
  have hpeer (q : PeerId) (spec : Intent) (h : ((s.transition env e).1.view q).Holds spec ∨
      .spawnTunnel q spec.1 spec.2 ∈ (s.transition env e).2) : own q spec ∨ named spec.1 q := by
    have hrefines := s.transition_refines env q e
    rw [← mem_commandsFor (p := q) rfl] at h
    cases e with
    | tunnelDialFailed p reason =>
      rcases s.onTunnelDialFailed_cases env p reason with ⟨_, heq⟩ | ⟨_, _, _, _, _, heq⟩ |
        ⟨session, c, _, _, _, _, hc, heq⟩ | ⟨_, _, heq⟩
      · rw [transition, heq] at h
        exact hs.held q spec (h.resolve_right List.not_mem_nil)
      · rw [transition, heq] at h
        exact hs.held q spec (h.resolve_right List.not_mem_nil)
      · rw [transition, heq] at h
        refine hs.held q spec (h.resolve_right fun hmem => ?_)
        rw [← List.mem_singleton.mp (List.mem_of_mem_filter hmem)] at hc
        cases hc
      · rw [transition, heq, commandsFor_rerouteSpecsAfterDialFailure] at h
        exact (hs.rerouteSpecsAfterDialFailure env p).held q spec
          (h.resolve_right List.not_mem_nil)
    | dhtServiceResolved name providers =>
      rcases hrefines.holds_resolved h with h | ⟨hname, hq⟩
      · exact hs.held q spec h
      · exact Or.inr (he spec.1 q ⟨hname.symm, hq⟩)
    | _ => exact hs.held q spec (hrefines.holds_before rfl h)
  refine ⟨⟨fun q spec h => hpeer q spec (Or.inl h), fun svc q h => ?_⟩,
    fun q spec h => hpeer q spec (Or.inr h)⟩
  by_cases hresolved : ∃ name providers, e = .dhtServiceResolved name providers
  · obtain ⟨name, providers, rfl⟩ := hresolved
    rcases mem_onDhtServiceResolved_reserve h with h | ⟨rfl, hq⟩
    · exact hs.reserve svc q h
    · exact he svc q ⟨rfl, hq⟩
  · refine hs.reserve svc q (mem_of_shrinks ?_ h)
    have hservice := s.transition_refinesAtService env svc e
    change Shrinks (s.serviceView svc).candidates ((s.transition env e).1.serviceView svc).candidates
    generalize (s.transition env e).1.serviceView svc = v,
      queriesFor svc (s.transition env e).2 = n at hservice
    cases hservice with
    | resolved => exact absurd ⟨_, _, rfl⟩ hresolved
    | rerouted _ _ hcandidates => exact hcandidates
    | _ => exact .refl _

/-- A configured machine holds intents for their own peers only. -/
theorem leadsTo_configured (calls : List ConfigCall) :
    LeadsTo (fun q spec => .addPeerTunnel q spec.1 spec.2 ∈ calls) named (configured calls) := by
  refine List.foldlRecOn calls ConfigCall.apply (motive := LeadsTo _ named) ?_ ?_
  · constructor
    case held =>
      rintro q spec (h | h)
      · simp [view, new] at h
      · simp [view, new] at h
    case reserve => simp [new, FiniteMap.getD]
  · intro s hs call hcall
    cases call with
    | addPeerTunnel peer svc bind =>
      refine ⟨?_, hs.reserve⟩
      rintro q spec (h | h)
      · change spec ∈ (s.pendingByPeer.extend peer [(svc, bind)]).getD q [] at h
        by_cases hq : q = peer
        · subst hq
          simp only [FiniteMap.getD, FiniteMap.get?_extend_self, Option.getD_some, List.mem_append,
            List.mem_singleton] at h
          rcases h with h | rfl
          · exact hs.held q spec (Or.inl h)
          · exact Or.inl hcall
        · rw [FiniteMap.getD, FiniteMap.get?_extend_of_ne _ _ hq] at h
          exact hs.held q spec (Or.inl h)
      · exact hs.held q spec (Or.inr h)
    | addServiceTunnel svc bind => exact ⟨hs.held, hs.reserve⟩
    | setNatMapping mapping => exact ⟨hs.held, hs.reserve⟩

/-- What one of the commands fulfils is among what all of them fulfil. -/
theorem mem_spawnedIntents {c : Command} {cs : List Command} (hc : c ∈ cs)
    (hspec : spec ∈ c.spawned) : spec ∈ spawnedIntents cs := by
  induction cs with
  | nil => cases hc
  | cons d ds ih =>
    change spec ∈ d.spawned + spawnedIntents ds
    rw [Multiset.mem_add]
    rcases List.mem_cons.mp hc with rfl | hc
    · exact Or.inl hspec
    · exact Or.inr (ih hc)

/-- An opened tunnel fulfils a requested intent. -/
theorem mem_requestedIntents_of_spawned {calls : List ConfigCall} {inputs : List (Env × Event)}
    {q : PeerId} {svc : ServiceName} {bind : ServiceAddr}
    (h : .spawnTunnel q svc bind ∈ machine.outputs (configured calls) inputs) :
    (svc, bind) ∈ requestedIntents calls := by
  rw [← heldIntents_configured, ← run_conserves _ inputs, Multiset.mem_add]
  exact Or.inr (mem_spawnedIntents h (Multiset.mem_singleton_self _))

/-- Whatever is opened leads to a peer that was configured or named. -/
theorem named_of_spawned (calls : List ConfigCall) (inputs : List (Env × Event)) :
    ∀ c ∈ machine.outputs (configured calls) inputs, ∀ (q : PeerId) (spec : Intent),
      c = .spawnTunnel q spec.1 spec.2 →
        .addPeerTunnel q spec.1 spec.2 ∈ calls ∨ NamedIn inputs spec.1 q := by
  have hguard : machine.Guarded (fun _ i => ∀ svc q, i.2.Names svc q → NamedIn inputs svc q)
      (configured calls) inputs :=
    .of_forall_mem fun i hi _ svc q hnames => ⟨i, hi, hnames⟩
  exact hguard.forall_outputs (leadsTo_configured calls) (fun s i hs hi => (hs.step i.1 hi).1)
    fun s i hs hi c hc q spec heq => (hs.step i.1 hi).2 q spec (heq ▸ hc)

/-- **Provenance of tunnels.** Whatever happens, a tunnel is opened for a requested intent, and to
the peer that the intent was configured for or to a peer that an answer for the service of the
intent has named as a provider. -/
theorem tunnels_lead_to_named_peers {calls : List ConfigCall} {inputs : List (Env × Event)}
    {q : PeerId} {svc : ServiceName} {bind : ServiceAddr}
    (h : .spawnTunnel q svc bind ∈ machine.outputs (configured calls) inputs) :
    (svc, bind) ∈ requestedIntents calls ∧
      (.addPeerTunnel q svc bind ∈ calls ∨ NamedIn inputs svc q) :=
  ⟨mem_requestedIntents_of_spawned h, named_of_spawned calls inputs _ h q (svc, bind) rfl⟩

/-- A tunnel whose peer cannot be dialed leads to a provider that is named afterwards. -/
theorem tunnels_lead_to_named_peers_rerouted :
    (webIntent.1, webIntent.2) ∈ requestedIntents [webTunnel] ∧
      (.addPeerTunnel ⟨2⟩ webIntent.1 webIntent.2 ∈ [webTunnel] ∨
        NamedIn [(Env.sorted, .tunnelDialFailed ⟨1⟩ "timeout"),
          (Env.sorted, .dhtServiceResolved webIntent.1 [(⟨2⟩, true)])] webIntent.1 ⟨2⟩) :=
  tunnels_lead_to_named_peers (by decide)

end TunnelState

end Punchgate
