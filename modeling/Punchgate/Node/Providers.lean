import Punchgate.Library.Ranking
import Punchgate.Node.Translate
import Punchgate.State.Fallback

/-!
# The choice of a provider

The providers found for a service come as a set. They are ranked, connected ones first, and the
tunnel machine takes the first one and keeps the others to fall back to. Since different peers have
different texts, the ranking does not depend on the order in which the set is walked.
-/

namespace Punchgate

variable {env env' : Env} {isConnected : PeerId → Bool} {S : Finset PeerId}

instance : Std.Total (providerBefore env) where
  total a b := by
    unfold providerBefore
    have htext := le_total (env.peerText a.1) (env.peerText b.1)
    cases a.2 <;> cases b.2 <;> simp [htext]

instance : IsTrans (PeerId × Bool) (providerBefore env) where
  trans a b c hab hbc := by
    unfold providerBefore at hab hbc ⊢
    rcases hab with ⟨ha, hb⟩ | ⟨hab, htext⟩
    · rcases hbc with ⟨hb', _⟩ | ⟨hbc, _⟩
      · rw [hb] at hb'
        cases hb'
      · exact Or.inl ⟨ha, hbc.symm.trans hb⟩
    · rcases hbc with ⟨hb, hc⟩ | ⟨hbc, htext'⟩
      · exact Or.inl ⟨hab.trans hb, hc⟩
      · exact Or.inr ⟨hab.trans hbc, htext.trans htext'⟩

/-- Providers with different texts are strictly ordered. -/
theorem antisymm_providerBefore (htext : Function.Injective env.peerText) :
    Std.Antisymm (providerBefore env) where
  antisymm a b hab hba := by
    unfold providerBefore at hab hba
    have hconnected : a.2 = b.2 := by
      cases ha : a.2 <;> cases hb : b.2 <;> simp_all
    simp only [hconnected, true_and] at hab hba
    have hle := hab.resolve_left fun h => by simp [h.1] at h
    have hge := hba.resolve_left fun h => by simp [h.1] at h
    exact Prod.ext (htext (le_antisymm hle hge)) hconnected

/-- The providers of a set in the order in which they are reported. -/
def rankedProviders (env : Env) (isConnected : PeerId → Bool) (S : Finset PeerId) :
    List (PeerId × Bool) :=
  ((env.peerOrder.toList S).map fun p => (p, isConnected p)).insertionSort (providerBefore env)

/-- The ranking does not depend on the order in which the set is walked. -/
theorem rankedProviders_congr (htext : Function.Injective env.peerText)
    (henv : env'.peerText = env.peerText) :
    rankedProviders env' isConnected S = rankedProviders env isConnected S := by
  have hantisymm := antisymm_providerBefore htext
  have hsame : providerBefore env' = providerBefore env := by
    funext a b
    rw [providerBefore, providerBefore, henv]
  have hsort (l : List (PeerId × Bool)) :
      l.insertionSort (providerBefore env') = l.insertionSort (providerBefore env) := by
    congr 1
  unfold rankedProviders
  rw [hsort]
  exact Ranking.insertionSort_eq_of_perm ((env.peerOrder.toList_perm env'.peerOrder S).map _)

/-- The lookup has failed if there is nobody to be ranked, and otherwise is resolved with the
ranked providers. -/
theorem translateGetProviders_found (env : Env) (isConnected : PeerId → Bool) (S : Finset PeerId)
    (svc : ServiceName) :
    (rankedProviders env isConnected S = [] →
      translateGetProviders env svc isConnected (.foundProviders S) =
        [.dhtServiceFailed svc "no providers found"]) ∧
    (rankedProviders env isConnected S ≠ [] →
      translateGetProviders env svc isConnected (.foundProviders S) =
        [.dhtServiceResolved svc (rankedProviders env isConnected S)]) := by
  rw [translateGetProviders]
  unfold rankedProviders
  cases ((env.peerOrder.toList S).map fun p => (p, isConnected p)).insertionSort
    (providerBefore env) with
  | nil => exact ⟨fun _ => rfl, fun hne => absurd rfl hne⟩
  | cons p ps => exact ⟨fun hnil => absurd hnil (List.cons_ne_nil p ps), fun _ => rfl⟩

/-- Every provider is ranked once, with its own connectivity. -/
theorem rankedProviders_perm (env : Env) (isConnected : PeerId → Bool) (S : Finset PeerId) :
    (rankedProviders env isConnected S).Perm
      ((env.peerOrder.toList S).map fun p => (p, isConnected p)) := List.perm_insertionSort _ _

theorem map_fst_rankedProviders_perm (env : Env) (isConnected : PeerId → Bool) (S : Finset PeerId) :
    ((rankedProviders env isConnected S).map Prod.fst).Perm (env.peerOrder.toList S) := by
  have hmap := (rankedProviders_perm env isConnected S).map Prod.fst
  rw [List.map_map] at hmap
  exact hmap.trans (List.Perm.of_eq (List.map_id _))

/-- The ranked providers are given by the order of their peers. -/
theorem rankedProviders_eq_map (env : Env) (isConnected : PeerId → Bool) (S : Finset PeerId) :
    rankedProviders env isConnected S =
      ((rankedProviders env isConnected S).map Prod.fst).map fun p => (p, isConnected p) := by
  rw [List.map_map]
  refine (List.map_id _).symm.trans (List.map_congr_left fun e he => ?_)
  obtain ⟨p, -, rfl⟩ := List.mem_map.mp ((rankedProviders_perm env isConnected S).mem_iff.mp he)
  rfl

/-- A connected provider comes first if there is one. -/
theorem isConnected_first {provider : PeerId} {rest : List PeerId}
    (hordered : (provider :: rest).Pairwise fun p q =>
      providerBefore env (p, isConnected p) (q, isConnected q))
    (hmem : ∀ q, q ∈ provider :: rest ↔ q ∈ S) :
    isConnected provider = true ↔ ∃ q ∈ S, isConnected q = true := by
  constructor
  · exact fun h => ⟨provider, (hmem provider).mp List.mem_cons_self, h⟩
  · rintro ⟨q, hq, hconnected⟩
    rcases List.mem_cons.mp ((hmem q).mpr hq) with rfl | hq
    · exact hconnected
    · have hbefore := (List.pairwise_cons.mp hordered).1 q hq
      rcases hbefore with ⟨h, _⟩ | ⟨h, _⟩
      · exact h
      · exact h.trans hconnected

/-- Intents are handed to a provider: routed if it is connected, otherwise kept while it is looked
up. -/
def TunnelState.handOver (s : TunnelState) (provider : PeerId) (connected : Bool)
    (specs : List Intent) : TunnelState × List Command :=
  if connected then s.routeConnectedPeer provider specs
  else ({ s with pendingByPeer := s.pendingByPeer.extend provider specs }, [.dhtLookupPeer provider])

/-- Handing intents over asks for no providers and keeps the stored ones. -/
theorem TunnelState.handOver_frame (s : TunnelState) (provider : PeerId) (connected : Bool)
    (specs : List Intent) (svc : ServiceName) :
    (s.handOver provider connected specs).1.serviceProviderCandidates = s.serviceProviderCandidates ∧
      .getProviders svc ∉ (s.handOver provider connected specs).2 := by
  unfold handOver routeConnectedPeer
  split
  · split
    · exact ⟨rfl, List.not_mem_nil⟩
    · refine ⟨rfl, fun hmem => ?_⟩
      have htarget := target_of_mem_spawnTunnels hmem
      cases htarget
  · exact ⟨rfl, by simp [Command.getProviders]⟩

/-- Intents that are handed over are tunnels to the provider, unless it is relayed or not connected:
then they wait for it, and in the latter case it is looked up. -/
def TunnelState.HandsOver (s : TunnelState) (provider : PeerId) (connected : Bool)
    (specs : List Intent) (out : TunnelState × List Command) : Prop :=
  (connected = true → provider ∉ s.relayedPeers → out.2 = spawnTunnels provider specs) ∧
  (connected = true → provider ∈ s.relayedPeers → out.2 = [] ∧
    out.1.awaitingHolepunch.get? provider = some (s.awaitingHolepunch.getD provider [] ++ specs)) ∧
  (connected = false → out.2 = [.dhtLookupPeer provider] ∧
    out.1.pendingByPeer.get? provider = some (s.pendingByPeer.getD provider [] ++ specs))

/-- Handing intents over does so. -/
theorem TunnelState.handsOver_handOver (s : TunnelState) (provider : PeerId) (connected : Bool)
    (specs : List Intent) : s.HandsOver provider connected specs
      (s.handOver provider connected specs) := by
  unfold handOver routeConnectedPeer
  refine ⟨fun hconnected hdirect => ?_, fun hconnected hrelayed => ?_, fun hunconnected => ?_⟩
  · rw [if_pos hconnected, if_neg hdirect]
  · rw [if_pos hconnected, if_pos hrelayed]
    exact ⟨rfl, FiniteMap.get?_extend_self _ _ _⟩
  · rw [hunconnected]
    exact ⟨rfl, FiniteMap.get?_extend_self _ _ _⟩

/-- Storing candidates does not change where intents wait. -/
theorem TunnelState.handsOver_storeProviderCandidates {s : TunnelState} {svc : ServiceName}
    {rest : List PeerId} {provider : PeerId} {connected : Bool} {specs : List Intent}
    {out : TunnelState × List Command} :
    (s.storeProviderCandidates svc rest).HandsOver provider connected specs out ↔
      s.HandsOver provider connected specs out := by
  unfold HandsOver storeProviderCandidates
  split <;> exact Iff.rfl

/-- The transition for providers that are all different. -/
theorem TunnelState.onDhtServiceResolved_cons (isConnected : PeerId → Bool) {s : TunnelState}
    {svc : ServiceName} {binds : List ServiceAddr} {provider : PeerId} {rest : List PeerId}
    (hpending : s.pendingByService.get? svc = some binds) (hnodup : (provider :: rest).Nodup) :
    s.onDhtServiceResolved svc ((provider :: rest).map fun p => (p, isConnected p)) =
      ({ s with pendingByService := s.pendingByService.erase svc }.storeProviderCandidates svc
        rest).handOver provider (isConnected provider) (binds.map fun addr => (svc, addr)) := by
  have hfirst (ps : List PeerId) : (ps.map fun p => (p, isConnected p)).map Prod.fst = ps := by
    rw [List.map_map]
    exact List.map_id ps
  have hdedup : dedupProviderCandidates ((provider :: rest).map fun p => (p, isConnected p)) =
      (provider, isConnected provider) :: rest.map fun p => (p, isConnected p) := by
    refine dedupBy_eq_self ?_ fun _ _ => List.not_mem_nil
    rwa [hfirst]
  unfold onDhtServiceResolved
  rw [hpending]
  dsimp only
  rw [hdedup]
  dsimp only
  rw [hfirst]
  rfl

/-- **The choice of a provider.** Providers found for a pending service are ranked, connected ones
first and by text. The first one is given the pending intents: tunnels to it are spawned if it is
connected and not relayed, and otherwise the intents wait for it. The others are stored in this
order, so a connected provider is chosen if there is one. Without providers the lookup has failed.
The order in which the set is walked does not matter. -/
theorem provider_choice (htext : Function.Injective env.peerText) (env' : Env)
    (isConnected : PeerId → Bool) (S : Finset PeerId) {s : TunnelState} {svc : ServiceName}
    {binds : List ServiceAddr} (hpending : s.pendingByService.get? svc = some binds) :
    (S = ∅ → translateGetProviders env svc isConnected (.foundProviders S) =
      [.dhtServiceFailed svc "no providers found"]) ∧
    (S ≠ ∅ → ∃ provider rest,
      (provider :: rest).Nodup ∧ (∀ q, q ∈ provider :: rest ↔ q ∈ S) ∧
      ((provider :: rest).Pairwise fun p q =>
        providerBefore env (p, isConnected p) (q, isConnected q)) ∧
      (isConnected provider = true ↔ ∃ q ∈ S, isConnected q = true) ∧
      ∃ providers, translateGetProviders env svc isConnected (.foundProviders S) =
          [.dhtServiceResolved svc providers] ∧
        let out := s.transition env' (.dhtServiceResolved svc providers)
        out = ({ s with pendingByService := s.pendingByService.erase svc }.storeProviderCandidates
            svc rest).handOver provider (isConnected provider) (binds.map fun addr => (svc, addr)) ∧
          s.HandsOver provider (isConnected provider) (binds.map fun addr => (svc, addr)) out ∧
          out.1.serviceProviderCandidates.get? svc = TunnelState.storedProviders rest ∧
          .getProviders svc ∉ out.2) ∧
    ∀ env'' : Env, env''.peerText = env.peerText →
      translateGetProviders env'' svc isConnected (.foundProviders S) =
        translateGetProviders env svc isConnected (.foundProviders S) := by
  have hfound := translateGetProviders_found env isConnected S svc
  refine ⟨fun hempty => ?_, fun hne => ?_, fun env'' henv => ?_⟩
  · have hnone : rankedProviders env isConnected S = [] := by
      rw [rankedProviders, hempty, Enumeration.toList_empty]
      rfl
    exact hfound.1 hnone
  · have hpeers := map_fst_rankedProviders_perm env isConnected S
    have hordered := List.pairwise_insertionSort (providerBefore env)
      ((env.peerOrder.toList S).map fun p => (p, isConnected p))
    change (rankedProviders env isConnected S).Pairwise _ at hordered
    rw [rankedProviders_eq_map, List.pairwise_map] at hordered
    cases hranked : (rankedProviders env isConnected S).map Prod.fst with
    | nil =>
      rw [hranked] at hpeers
      refine absurd (Finset.eq_empty_of_forall_notMem fun q hq => ?_) hne
      have hmem := hpeers.mem_iff.mpr ((env.peerOrder.mem_iff S q).mpr hq)
      cases hmem
    | cons provider rest =>
      rw [hranked] at hpeers hordered
      have hnodup : (provider :: rest).Nodup := hpeers.nodup_iff.mpr (env.peerOrder.nodup S)
      have hmem (q : PeerId) : q ∈ provider :: rest ↔ q ∈ S :=
        hpeers.mem_iff.trans (env.peerOrder.mem_iff S q)
      have hevent : translateGetProviders env svc isConnected (.foundProviders S) =
          [.dhtServiceResolved svc ((provider :: rest).map fun p => (p, isConnected p))] := by
        have hmap := rankedProviders_eq_map env isConnected S
        rw [hranked] at hmap
        rw [hfound.2 (hmap ▸ List.cons_ne_nil _ _), hmap]
      refine ⟨provider, rest, hnodup, hmem, hordered, isConnected_first hordered hmem, _, hevent,
        ?_⟩
      have hstep := TunnelState.onDhtServiceResolved_cons isConnected hpending hnodup
      have hframe := TunnelState.handOver_frame
        ({ s with pendingByService := s.pendingByService.erase svc }.storeProviderCandidates svc rest)
        provider (isConnected provider) (binds.map fun addr => (svc, addr)) svc
      have hstored := TunnelState.storeProviderCandidates_self svc
        { s with pendingByService := s.pendingByService.erase svc } rest
      have hdedup : dedupPeers rest = rest :=
        dedupBy_id_eq_self (List.nodup_cons.mp hnodup).2 fun _ _ => List.not_mem_nil
      rw [hdedup] at hstored
      have hhands := TunnelState.handsOver_handOver
        ({ s with pendingByService := s.pendingByService.erase svc }.storeProviderCandidates svc rest)
        provider (isConnected provider) (binds.map fun addr => (svc, addr))
      rw [TunnelState.handsOver_storeProviderCandidates, ← hstep] at hhands
      refine ⟨hstep, hhands, ?_, ?_⟩
      · exact ((congrArg (fun out => out.1.serviceProviderCandidates.get? svc) hstep).trans
          (congrArg (·.get? svc) hframe.1)).trans hstored
      · exact fun hmem => hframe.2 (hstep ▸ hmem)
  · have hfound' := translateGetProviders_found env'' isConnected S svc
    rw [rankedProviders_congr htext henv] at hfound'
    by_cases hnone : rankedProviders env isConnected S = []
    · exact (hfound'.1 hnone).trans (hfound.1 hnone).symm
    · exact (hfound'.2 hnone).trans (hfound.2 hnone).symm

/-- In the sorted environment different peers have different texts. -/
theorem peerText_sorted_injective : Function.Injective Env.sorted.peerText := by
  intro p q h
  have htext : Nat.toDigits 10 p.multihash = Nat.toDigits 10 q.multihash :=
    String.ofList_injective h
  have hvalue := congrArg (Nat.ofDigitChars 10 · 0) htext
  simp only [Nat.ofDigitChars_ten_toDigits] at hvalue
  obtain ⟨p⟩ := p
  obtain ⟨q⟩ := q
  exact congrArg PeerId.mk hvalue

/-- Of two providers the connected one is chosen, and the other one stored. -/
theorem provider_choice_connected :
    ∃ provider rest, (provider :: rest).Nodup ∧
      (∀ q, q ∈ provider :: rest ↔ q ∈ ({⟨1⟩, ⟨2⟩} : Finset PeerId)) ∧
      (decide (provider = ⟨2⟩) = true ↔
        ∃ q ∈ ({⟨1⟩, ⟨2⟩} : Finset PeerId), decide (q = ⟨2⟩) = true) := by
  have hpending : (TunnelState.configured
      [.addServiceTunnel ⟨"web"⟩ webIntent.2]).pendingByService.get? ⟨"web"⟩ =
        some [webIntent.2] := rfl
  obtain ⟨provider, rest, hnodup, hmem, -, hconnected, -⟩ :=
    (provider_choice peerText_sorted_injective Env.sorted (fun p => decide (p = ⟨2⟩)) {⟨1⟩, ⟨2⟩}
      hpending).2.1 (by decide)
  exact ⟨provider, rest, hnodup, hmem, hconnected⟩

end Punchgate
