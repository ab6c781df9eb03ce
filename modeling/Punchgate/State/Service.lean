import Punchgate.State.App
import Punchgate.State.Refinement

/-!
# One service at a time

What the tunnel machine does about a service name depends on the intents that wait for a
provider of it and on the providers kept in reserve. `ServiceView` is this slice of the state
and `ServiceStep` its behaviour, with the number of provider queries every step asks for. The
transition function refines it at every service.
-/

namespace Punchgate

/-- What the tunnel machine holds for one service name. -/
@[ext] structure ServiceView where
  /-- The bind addresses of the intents that wait for a provider. -/
  pending : Option (List ServiceAddr)
  /-- The providers kept in reserve. -/
  candidates : Option (List PeerId)
  deriving DecidableEq

/-- The slice of the state that belongs to a service name. -/
def TunnelState.serviceView (s : TunnelState) (svc : ServiceName) : ServiceView where
  pending := s.pendingByService.get? svc
  candidates := s.serviceProviderCandidates.get? svc

/-- A command asks for the providers of a service. -/
def Command.queries (svc : ServiceName) : Command → Bool
  | .dhtGetProviders name _ => name = svc
  | _ => false

/-- An event answers a provider query for a service. -/
def Event.answers (svc : ServiceName) : Event → Bool
  | .dhtServiceResolved name _ | .dhtServiceFailed name _ => name = svc
  | _ => false

/-- The providers kept in reserve are at most taken away from the front, and forgotten with the
last one. -/
def Shrinks (before after : Option (List PeerId)) : Prop :=
  ∀ left ∈ after, ∃ all ∈ before, left <:+ all ∧ (all ≠ [] → left ≠ [])

namespace ServiceView

/-- Hand intents back to the service. -/
def refill (v : ServiceView) (binds : List ServiceAddr) : Option (List ServiceAddr) :=
  if binds = [] then v.pending else some (v.pending.getD [] ++ binds)

/-- The number of provider queries that are asked for while intents wait. -/
def demand (v : ServiceView) : ℕ := if v.pending.isSome = true then 1 else 0

end ServiceView

/-- The ways in which an event can change the slice of a service, with the number of provider
queries that it leads to. -/
inductive ServiceStep (s : TunnelState) (svc : ServiceName) : Event → ServiceView → ℕ → Prop
  /-- An event about something else. -/
  | idle {e} (h : e.answers svc = false) : ServiceStep s svc e (s.serviceView svc) 0
  /-- The node becomes ready and starts its lookups. -/
  | started {old} :
      ServiceStep s svc (.phaseChanged old .ready) (s.serviceView svc) (s.serviceView svc).demand
  /-- A query has failed and is repeated while intents wait. -/
  | failed {reason} :
      ServiceStep s svc (.dhtServiceFailed svc reason) (s.serviceView svc)
        (s.serviceView svc).demand
  /-- An answer that nothing waits for. -/
  | unneeded {providers} (hpending : (s.serviceView svc).pending = none) :
      ServiceStep s svc (.dhtServiceResolved svc providers) (s.serviceView svc) 0
  /-- An answer without providers: the query is repeated. -/
  | unresolved (hpending : (s.serviceView svc).pending.isSome = true) :
      ServiceStep s svc (.dhtServiceResolved svc []) (s.serviceView svc) 1
  /-- The intents leave for the first provider, the others are kept in reserve. -/
  | resolved {providers candidates} (hproviders : providers ≠ [])
      (hpending : (s.serviceView svc).pending.isSome = true)
      (hcandidates : ∀ all ∈ candidates, all ≠ [] ∧ all.Nodup) :
      ServiceStep s svc (.dhtServiceResolved svc providers) ⟨none, candidates⟩ 0
  /-- Intents come back after a failed dial; those for which no provider is left lead to a new
  query. -/
  | rerouted {q reason binds candidates} (hreroute : s.ReroutesAfter q reason)
      (hbinds : ∀ bind ∈ binds, (svc, bind) ∈ s.pendingByPeer.getD q [])
      (hcandidates : Shrinks (s.serviceView svc).candidates candidates) :
      ServiceStep s svc (.tunnelDialFailed q reason)
        ⟨(s.serviceView svc).refill binds, candidates⟩ (if binds = [] then 0 else 1)

/-! ## Counting provider queries -/

/-- The number of provider queries for a service among some commands. -/
def queriesFor (svc : ServiceName) (cs : List Command) : ℕ := cs.countP (·.queries svc)

/-- Commands that act on a peer ask for no providers. -/
theorem queriesFor_eq_zero {svc : ServiceName} {cs : List Command}
    (h : ∀ c ∈ cs, c.queries svc = false) : queriesFor svc cs = 0 := by
  unfold queriesFor
  rw [List.countP_eq_zero]
  intro c hc
  rw [h c hc]
  exact Bool.false_ne_true

/-- The queries of two lists of commands add up. -/
theorem queriesFor_append (svc : ServiceName) (cs ds : List Command) :
    queriesFor svc (cs ++ ds) = queriesFor svc cs + queriesFor svc ds := List.countP_append

/-- Asking for the providers of a list of services counts the service in the list. -/
theorem queriesFor_getProviders (svc : ServiceName) (svcs : List ServiceName) :
    queriesFor svc (svcs.map .getProviders) = svcs.count svc := by
  unfold queriesFor
  rw [List.countP_map]
  rfl

/-- An enumerated set asks for each of its services once. -/
theorem queriesFor_enumerated (svc : ServiceName) (order : Enumeration ServiceName)
    (svcs : Finset ServiceName) :
    queriesFor svc ((order.toList svcs).map .getProviders) = if svc ∈ svcs then 1 else 0 := by
  rw [queriesFor_getProviders, order.count_toList]

/-- A dial asks for no providers. -/
theorem queries_of_dials {svc : ServiceName} {p : PeerId} {c : Command} (h : c.dials p = true) :
    c.queries svc = false := by
  cases c <;> first | rfl | cases h

/-! ## Providers in reserve -/

/-- Keeping the reserve is a way of shrinking it. -/
theorem Shrinks.refl (before : Option (List PeerId)) : Shrinks before before :=
  fun left hleft => ⟨left, hleft, List.suffix_refl left, id⟩

/-- A reserve may be forgotten. -/
theorem Shrinks.none (before : Option (List PeerId)) : Shrinks before none :=
  fun _ hleft => by cases hleft

/-- Shrinking twice is shrinking. -/
theorem Shrinks.trans {a b c : Option (List PeerId)} (h : Shrinks a b) (h' : Shrinks b c) :
    Shrinks a c := by
  intro left hleft
  obtain ⟨middle, hmiddle, hsuffix, hne⟩ := h' left hleft
  obtain ⟨all, hall, hsuffix', hne'⟩ := h middle hmiddle
  exact ⟨all, hall, hsuffix.trans hsuffix', fun hall => hne (hne' hall)⟩

namespace TunnelState

variable {env : Env} {s : TunnelState} {svc : ServiceName}

/-- What is left behind a popped candidate is the end of the reserve. -/
theorem popCandidate_suffix {ex next : PeerId} {providers rest : List PeerId}
    (h : popCandidate ex providers = some (next, rest)) : rest <:+ providers := by
  induction providers with
  | nil => cases h
  | cons p ps ih =>
    unfold popCandidate at h
    split at h
    · exact (ih h).trans (List.suffix_cons _ _)
    · cases h
      exact List.suffix_cons _ _

/-- Choosing a fallback provider shrinks the reserve of every service. -/
theorem nextFallbackProvider_shrinks (s : TunnelState) (svc name : ServiceName) (ex : PeerId) :
    Shrinks (s.serviceProviderCandidates.get? svc)
      ((s.nextFallbackProvider name ex).1.serviceProviderCandidates.get? svc) := by
  have herase : Shrinks (s.serviceProviderCandidates.get? svc)
      ((s.serviceProviderCandidates.erase name).get? svc) := by
    by_cases h : svc = name
    · subst h
      rw [FiniteMap.get?_erase_self]
      exact .none _
    · rw [FiniteMap.get?_erase_of_ne _ h]
      exact .refl _
  unfold nextFallbackProvider
  split
  · exact .refl _
  · rename_i providers hproviders
    split
    · exact herase
    · exact herase
    · rename_i next p ps hpop
      by_cases h : svc = name
      · subst h
        dsimp only
        rw [FiniteMap.get?_insert_self]
        intro left hleft
        cases hleft
        exact ⟨providers, hproviders, popCandidate_suffix hpop, fun _ => List.cons_ne_nil p ps⟩
      · dsimp only
        rw [FiniteMap.get?_insert_of_ne _ _ h]
        exact .refl _

/-- The loop over the intents of a failed peer shrinks the reserve of every service. -/
theorem foldl_rerouteSpec_shrinks (peer : PeerId) (specs : List Intent) (acc : Reroute)
    (svc : ServiceName) :
    Shrinks (acc.state.serviceProviderCandidates.get? svc)
      ((specs.foldl (rerouteSpec peer) acc).state.serviceProviderCandidates.get? svc) := by
  induction specs generalizing acc with
  | nil => exact .refl _
  | cons spec specs ih =>
    refine Shrinks.trans ?_ (ih _)
    have hone := acc.state.nextFallbackProvider_shrinks svc spec.1 peer
    unfold rerouteSpec
    split
    · rename_i heq
      rw [heq] at hone
      exact hone
    · rename_i heq
      rw [heq] at hone
      exact hone

/-- The loop hands some intents back to their service, and asks for the providers of exactly
the services that got some. -/
theorem foldl_rerouteSpec_refills (peer : PeerId) (specs : List Intent) (acc : Reroute)
    (svc : ServiceName) (hacc : svc ∉ acc.refreshServices) :
    ∃ binds, (∀ bind ∈ binds, (svc, bind) ∈ specs) ∧
      (specs.foldl (rerouteSpec peer) acc).state.pendingByService.get? svc =
        (acc.state.serviceView svc).refill binds ∧
      (svc ∈ (specs.foldl (rerouteSpec peer) acc).refreshServices ↔ binds ≠ []) := by
  refine foldl_rerouteSpec_induction
    (P := fun r => ∃ binds, (∀ bind ∈ binds, (svc, bind) ∈ specs) ∧
      r.state.pendingByService.get? svc = (acc.state.serviceView svc).refill binds ∧
      (svc ∈ r.refreshServices ↔ binds ≠ [])) ?_ ?_ ?_
  · exact ⟨[], by simp, rfl, by simp [hacc]⟩
  · rintro r candidates next spec _ _ ⟨binds, hbinds, hpending, hrefresh⟩
    exact ⟨binds, hbinds, hpending, hrefresh⟩
  · rintro r candidates spec hspec ⟨binds, hbinds, hpending, hrefresh⟩
    by_cases hsvc : svc = spec.1
    · subst hsvc
      refine ⟨binds ++ [spec.2], ?_, ?_, by simp⟩
      · intro bind hbind
        rcases List.mem_append.mp hbind with hbind | hbind
        · exact hbinds bind hbind
        · rw [List.mem_singleton.mp hbind]
          exact hspec
      · dsimp only
        rw [FiniteMap.get?_extend_self, FiniteMap.getD, hpending]
        by_cases hnil : binds = []
        · simp [ServiceView.refill, hnil]
        · simp [ServiceView.refill, hnil]
    · refine ⟨binds, hbinds, ?_, by simp [hsvc, hrefresh]⟩
      dsimp only
      rw [FiniteMap.get?_extend_of_ne _ _ hsvc]
      exact hpending

/-! ## The transition function, branch by branch -/

/-- A result behaves at a service as the abstract machine allows. -/
def RefinesAtService (s : TunnelState) (svc : ServiceName) (e : Event)
    (r : TunnelState × List Command) : Prop :=
  ServiceStep s svc e (r.1.serviceView svc) (queriesFor svc r.2)

/-- An event about something else that leaves the slice of the service alone. -/
theorem refinesAtService_of_frame {e : Event} {r : TunnelState × List Command}
    (he : e.answers svc = false) (hpending : r.1.pendingByService = s.pendingByService)
    (hcandidates : r.1.serviceProviderCandidates = s.serviceProviderCandidates)
    (hcs : ∀ c ∈ r.2, c.queries svc = false) : s.RefinesAtService svc e r := by
  have hview : r.1.serviceView svc = s.serviceView svc := by
    unfold serviceView
    rw [hpending, hcandidates]
  unfold RefinesAtService
  rw [hview, queriesFor_eq_zero hcs]
  exact .idle he

/-- The branch for failed dials. -/
theorem onTunnelDialFailed_refinesAtService (q : PeerId) (reason : String) :
    s.RefinesAtService svc (.tunnelDialFailed q reason) (s.onTunnelDialFailed env q reason) := by
  rcases s.onTunnelDialFailed_cases env q reason with ⟨_, heq⟩ | ⟨_, _, _, _, _, heq⟩ |
    ⟨session, c, _, _, _, _, hc, heq⟩ | ⟨_, hbranch, heq⟩
  · rw [heq]
    exact refinesAtService_of_frame rfl rfl rfl (by simp)
  · rw [heq]
    exact refinesAtService_of_frame rfl rfl rfl (by simp)
  · rw [heq]
    refine refinesAtService_of_frame rfl rfl rfl fun c' hc' => ?_
    rw [List.mem_singleton.mp hc']
    exact queries_of_dials hc
  · rw [heq]
    cases hpending : s.pendingByPeer.get? q with
    | none =>
      rw [rerouteSpecsAfterDialFailure_none hpending]
      exact refinesAtService_of_frame rfl rfl rfl (by simp)
    | some specs =>
      have hspecs : s.pendingByPeer.getD q [] = specs := by simp [FiniteMap.getD, hpending]
      obtain ⟨binds, hbinds, hrefill, hrefresh⟩ := foldl_rerouteSpec_refills q specs
        ⟨{ s with pendingByPeer := s.pendingByPeer.erase q }, ∅, ∅⟩ svc (by simp)
      have hview : (s.rerouteSpecsAfterDialFailure env q).1.serviceView svc =
          ⟨(s.serviceView svc).refill binds,
            (s.rerouteLoop q specs).state.serviceProviderCandidates.get? svc⟩ := by
        rw [rerouteSpecsAfterDialFailure_state hpending]
        exact ServiceView.ext hrefill rfl
      have hcount : queriesFor svc (s.rerouteSpecsAfterDialFailure env q).2 =
          if binds = [] then 0 else 1 := by
        rw [rerouteSpecsAfterDialFailure_commands hpending]
        have hlookups : queriesFor svc (((s.rerouteLoop q specs).reassignToPeer.entries
            env.peerOrder).map fun e => .dhtLookupPeer e.1) = 0 := by
          apply queriesFor_eq_zero
          intro c hc
          obtain ⟨e, _, rfl⟩ := List.mem_map.mp hc
          rfl
        rw [queriesFor_append, hlookups, queriesFor_enumerated, Nat.zero_add]
        change svc ∈ (s.rerouteLoop q specs).refreshServices ↔ binds ≠ [] at hrefresh
        by_cases hnil : binds = []
        · rw [if_pos hnil, if_neg fun hmem => hrefresh.mp hmem hnil]
        · rw [if_neg hnil, if_pos (hrefresh.mpr hnil)]
      unfold RefinesAtService
      rw [hview, hcount]
      refine .rerouted (reroutesAfter_of_branch hbranch) (hspecs ▸ hbinds) ?_
      exact foldl_rerouteSpec_shrinks q specs _ svc

/-- The reserve stored for a service has no repetitions, and is never empty. -/
theorem storeProviderCandidates_spec (s : TunnelState) (name : ServiceName) (ps : List PeerId) :
    (s.storeProviderCandidates name ps).pendingByService = s.pendingByService ∧
    (∀ svc, svc ≠ name → (s.storeProviderCandidates name ps).serviceProviderCandidates.get? svc =
      s.serviceProviderCandidates.get? svc) ∧
    ∀ all ∈ (s.storeProviderCandidates name ps).serviceProviderCandidates.get? name,
      all ≠ [] ∧ all.Nodup := by
  have hnodup : (dedupPeers ps).Nodup := nodup_dedupBy_id [] ps
  unfold storeProviderCandidates
  split
  · refine ⟨rfl, fun svc hsvc => FiniteMap.get?_erase_of_ne _ hsvc, fun all hall => ?_⟩
    simp at hall
  · rename_i p rest heq
    refine ⟨rfl, fun svc hsvc => FiniteMap.get?_insert_of_ne _ _ hsvc, fun all hall => ?_⟩
    simp only [FiniteMap.get?_insert_self, Option.mem_some_iff] at hall
    subst hall
    refine ⟨List.cons_ne_nil p rest, ?_⟩
    rw [← heq]
    exact hnodup

/-- Routing intents of a connected peer is no concern of the services. -/
theorem routeConnectedPeer_frame_service (svc : ServiceName) (s : TunnelState) (q : PeerId)
    (specs : List Intent) :
    (s.routeConnectedPeer q specs).1.pendingByService = s.pendingByService ∧
      (s.routeConnectedPeer q specs).1.serviceProviderCandidates = s.serviceProviderCandidates ∧
      ∀ c ∈ (s.routeConnectedPeer q specs).2, c.queries svc = false := by
  unfold routeConnectedPeer
  split
  · exact ⟨rfl, rfl, by simp⟩
  · refine ⟨rfl, rfl, fun c hc => ?_⟩
    obtain ⟨spec, _, rfl⟩ := List.mem_map.mp hc
    rfl

/-- The branch for resolved services. -/
theorem onDhtServiceResolved_refinesAtService (name : ServiceName)
    (providers : List (PeerId × Bool)) :
    s.RefinesAtService svc (.dhtServiceResolved name providers)
      (s.onDhtServiceResolved name providers) := by
  have helse (h : svc ≠ name) : (Event.dhtServiceResolved name providers).answers svc = false :=
    decide_eq_false h.symm
  unfold onDhtServiceResolved
  split
  · rename_i hnone
    by_cases hsvc : svc = name
    · subst hsvc
      exact .unneeded hnone
    · exact refinesAtService_of_frame (helse hsvc) rfl rfl (by simp)
  · rename_i binds hbinds
    have hpending : (s.serviceView name).pending.isSome = true := FiniteMap.contains_of_get? hbinds
    split
    · rename_i hdedup
      have hnil : providers = [] := by
        cases providers with
        | nil => rfl
        | cons c rest => simp [dedupProviderCandidates, dedupBy] at hdedup
      subst hnil
      by_cases hsvc : svc = name
      · subst hsvc
        have hone : queriesFor svc [.getProviders svc] = 1 := by
          simp [queriesFor, Command.getProviders, Command.queries]
        have hstep :
            s.RefinesAtService svc (.dhtServiceResolved svc []) (s, [.getProviders svc]) := by
          unfold RefinesAtService
          rw [hone]
          exact .unresolved hpending
        exact hstep
      · refine refinesAtService_of_frame (helse hsvc) rfl rfl fun c hc => ?_
        rw [List.mem_singleton.mp hc]
        exact decide_eq_false (Ne.symm hsvc)
    · rename_i provider connected fallback hdedup
      have hproviders : providers ≠ [] := by
        rintro rfl
        cases hdedup
      obtain ⟨hstored, hother, hreserve⟩ := storeProviderCandidates_spec
        { s with pendingByService := s.pendingByService.erase name } name (fallback.map Prod.fst)
      have hresult {r : TunnelState × List Command}
          (hby : r.1.pendingByService = s.pendingByService.erase name)
          (hcandidates : r.1.serviceProviderCandidates =
            (storeProviderCandidates
              { s with pendingByService := s.pendingByService.erase name } name
              (fallback.map Prod.fst)).serviceProviderCandidates)
          (hcs : ∀ c ∈ r.2, c.queries svc = false) :
          s.RefinesAtService svc (.dhtServiceResolved name providers) r := by
        unfold RefinesAtService
        rw [queriesFor_eq_zero hcs]
        by_cases hsvc : svc = name
        · subst hsvc
          have hview : r.1.serviceView svc = ⟨none, r.1.serviceProviderCandidates.get? svc⟩ := by
            refine ServiceView.ext ?_ rfl
            change r.1.pendingByService.get? svc = none
            rw [hby]
            exact FiniteMap.get?_erase_self _ _
          rw [hview]
          refine .resolved hproviders hpending ?_
          rw [hcandidates]
          exact hreserve
        · have hview : r.1.serviceView svc = s.serviceView svc := by
            refine ServiceView.ext ?_ ?_
            · change r.1.pendingByService.get? svc = _
              rw [hby]
              exact FiniteMap.get?_erase_of_ne _ hsvc
            · change r.1.serviceProviderCandidates.get? svc = _
              rw [hcandidates]
              exact hother svc hsvc
          rw [hview]
          exact .idle (helse hsvc)
      dsimp only
      split
      · obtain ⟨hby, hcandidates, hcs⟩ := routeConnectedPeer_frame_service svc
          (storeProviderCandidates { s with pendingByService := s.pendingByService.erase name } name
            (fallback.map Prod.fst)) provider (binds.map fun addr => (name, addr))
        exact hresult (hby.trans hstored) hcandidates hcs
      · refine hresult hstored rfl fun c hc => ?_
        rw [List.mem_singleton.mp hc]
        rfl

/-- Looking up peers asks for no providers. -/
theorem queriesFor_lookups (svc : ServiceName) (peers : List PeerId) :
    queriesFor svc (peers.map .dhtLookupPeer) = 0 := by
  apply queriesFor_eq_zero
  intro c hc
  obtain ⟨peer, _, rfl⟩ := List.mem_map.mp hc
  rfl

/-- The lookups of a node that becomes ready ask once for every service that intents wait for. -/
theorem queriesFor_initiateLookups (env : Env) (s : TunnelState) (svc : ServiceName) :
    queriesFor svc (s.initiateLookups env) = (s.serviceView svc).demand := by
  unfold initiateLookups
  rw [queriesFor_append, queriesFor_lookups, queriesFor_enumerated, Nat.zero_add]
  exact if_congr FiniteMap.mem_keys rfl rfl

/-- The branches for failed attempts. -/
theorem retryHolepunchAttempt_refinesAtService {e : Event} (q : PeerId) (attemptId : ℕ)
    (he : e.answers svc = false) :
    s.RefinesAtService svc e (s.retryHolepunchAttempt q attemptId) := by
  rcases s.retryHolepunchAttempt_cases q attemptId with ⟨_, heq⟩ | ⟨specs, _, _, _, heq⟩ |
    ⟨_, _, _, _, _, heq⟩
  · rw [heq]
    exact refinesAtService_of_frame he rfl rfl (by simp)
  · rw [heq]
    refine refinesAtService_of_frame he rfl rfl fun c hc => ?_
    obtain ⟨spec, _, rfl⟩ := List.mem_map.mp hc
    rfl
  · rw [heq]
    refine refinesAtService_of_frame he rfl rfl fun c hc => ?_
    rw [List.mem_singleton.mp hc]
    rfl

/-- The branch for lost connections. -/
theorem onFullyDisconnected_refinesAtService {e : Event} (q : PeerId)
    (he : e.answers svc = false) : s.RefinesAtService svc e (s.onFullyDisconnected env q) := by
  rcases s.onFullyDisconnected_cases env q with ⟨c, _, hc, heq⟩ | ⟨specs, _, _, heq⟩ | ⟨_, _, heq⟩
  · rw [heq]
    refine refinesAtService_of_frame he rfl rfl fun c' hc' => ?_
    rw [List.mem_singleton.mp hc']
    exact queries_of_dials hc
  · rw [heq]
    refine refinesAtService_of_frame he rfl rfl fun c hc => ?_
    rw [List.mem_singleton.mp hc]
    rfl
  · rw [heq]
    exact refinesAtService_of_frame he rfl rfl (by simp)

/-- **Refinement.** At every service the transition function follows the abstract machine. -/
theorem transition_refinesAtService (env : Env) (s : TunnelState) (svc : ServiceName) (e : Event) :
    ServiceStep s svc e ((s.transition env e).1.serviceView svc)
      (queriesFor svc (s.transition env e).2) := by
  change s.RefinesAtService svc e (s.transition env e)
  cases e with
  | phaseChanged old new =>
    cases new with
    | ready =>
      have hcount : queriesFor svc (s.transition env (.phaseChanged old .ready)).2 =
          (s.serviceView svc).demand := s.queriesFor_initiateLookups env svc
      unfold RefinesAtService
      rw [hcount]
      exact .started
    | joining => exact refinesAtService_of_frame rfl rfl rfl (by simp [transition])
    | shuttingDown => exact refinesAtService_of_frame rfl rfl rfl (by simp [transition])
  | dhtServiceResolved name providers => exact onDhtServiceResolved_refinesAtService name providers
  | dhtServiceFailed name reason =>
    by_cases hsvc : svc = name
    · subst hsvc
      have hcount : queriesFor svc (s.transition env (.dhtServiceFailed svc reason)).2 =
          (s.serviceView svc).demand := by
        unfold ServiceView.demand
        simp only [transition]
        change _ = if s.pendingByService.contains svc = true then 1 else 0
        split
        · simp [queriesFor, Command.getProviders, Command.queries]
        · rfl
      unfold RefinesAtService
      rw [hcount]
      exact .failed
    · refine refinesAtService_of_frame (decide_eq_false (Ne.symm hsvc)) rfl rfl fun c hc => ?_
      simp only [transition] at hc
      split at hc
      · rw [List.mem_singleton.mp hc]
        exact decide_eq_false (Ne.symm hsvc)
      · cases hc
  | tunnelDialFailed q reason => exact onTunnelDialFailed_refinesAtService q reason
  | dhtPeerLookupComplete q connected =>
    cases connected with
    | true =>
      simp only [transition]
      split
      · rename_i specs _
        obtain ⟨hby, hcandidates, hcs⟩ := routeConnectedPeer_frame_service svc
          { s with pendingByPeer := s.pendingByPeer.erase q } q specs
        exact refinesAtService_of_frame rfl hby hcandidates hcs
      · exact refinesAtService_of_frame rfl rfl rfl (by simp)
    | false =>
      refine refinesAtService_of_frame rfl rfl rfl fun c hc => ?_
      simp only [transition] at hc
      split at hc
      · rw [List.mem_singleton.mp hc]
        rfl
      · cases hc
  | tunnelPeerConnected q relayed =>
    cases relayed with
    | true =>
      simp only [transition, onRelayedConnection]
      split
      · exact refinesAtService_of_frame rfl rfl rfl (by simp)
      · exact refinesAtService_of_frame rfl rfl rfl (by simp)
    | false =>
      refine refinesAtService_of_frame rfl rfl rfl fun c hc => ?_
      obtain ⟨spec, _, rfl⟩ := List.mem_map.mp hc
      rfl
  | holePunchAttemptFailed q a reason => exact retryHolepunchAttempt_refinesAtService q a rfl
  | holePunchAttemptTimeout q a => exact retryHolepunchAttempt_refinesAtService q a rfl
  | connectionLost q remaining =>
    simp only [transition]
    split
    · exact onFullyDisconnected_refinesAtService q rfl
    · exact refinesAtService_of_frame rfl rfl rfl (by simp)
  | relayReservationAccepted =>
    exact refinesAtService_of_frame rfl rfl rfl (by simp [transition, Command.queries])
  | _ => exact refinesAtService_of_frame rfl rfl rfl (by simp [transition])

end TunnelState

end Punchgate
