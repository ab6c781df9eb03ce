import Punchgate.State.Redial
import Punchgate.State.Service

/-!
# Falling back to the next provider

A service that is asked for by name has a list of providers to try, shared by all the local
addresses bound to it. A failed dial takes one provider from the list for each address, and not
one for all of them. So the addresses are dealt out to different providers, and the service is
asked for again while some of them were not tried.
-/

namespace Punchgate

/-- The lookup or dial that an event is the unsuccessful answer to. -/
def Event.declines : Event → Option Command
  | .dhtPeerLookupComplete peer false => some (.dhtLookupPeer peer)
  | .tunnelDialFailed peer _ => some (.dialPeer peer)
  | _ => none

/-- A command waits for an answer. -/
def Command.awaitsAnswer : Command → Bool
  | .dhtLookupPeer _ | .dialPeer _ => true
  | _ => false

/-- What is noted of a run in which no provider can be reached. -/
structure FallbackLog where
  /-- The lookups and dials without an answer. -/
  outstanding : List Command
  /-- How many copies of an intent were ever put under a peer. -/
  assigned : PeerId → Intent → ℕ
  /-- The peers that could not be dialed. -/
  failed : Finset PeerId
  /-- How often providers of the service were asked for. -/
  queried : ℕ

namespace FallbackLog

/-- Before the run nothing is noted. -/
def new : FallbackLog := ⟨[], fun _ _ => 0, ∅, 0⟩

/-- The notes after a step. -/
def update (svc : ServiceName) (log : FallbackLog) (s : TunnelState) (i : Env × Event)
    (cs : List Command) : FallbackLog where
  outstanding :=
    (match i.2.declines with
      | some c => log.outstanding.erase c
      | none => log.outstanding) ++ cs.filter Command.awaitsAnswer
  assigned peer spec := log.assigned peer spec +
    (((s.transition i.1 i.2).1.pendingByPeer.getD peer []).count spec -
      (s.pendingByPeer.getD peer []).count spec)
  failed :=
    match i.2.failedDial with
    | some peer => insert peer log.failed
    | none => log.failed
  queried := log.queried + queriesFor svc cs

end FallbackLog

namespace TunnelState

/-- The tunnel machine with the notes of a run. -/
def tried (svc : ServiceName) : Mealy.Machine (TunnelState × FallbackLog) (Env × Event) Command :=
  machine.withGhost (FallbackLog.update svc)

/-- An input answers a lookup or a dial that is outstanding. -/
def Answers (x : TunnelState × FallbackLog) (i : Env × Event) : Prop :=
  ∃ c ∈ i.2.declines, c ∈ x.2.outstanding

/-- A service bound to local addresses, and nothing else, after its providers were found, none
of them connected. -/
def resolved (env : Env) (svc : ServiceName) (binds : List ServiceAddr)
    (providers : List PeerId) : TunnelState × FallbackLog :=
  ((tried svc).step (configured (binds.map (.addServiceTunnel svc)), .new)
    (env, .dhtServiceResolved svc (providers.map (·, false)))).1

/-- What is expected of a run in which no provider can be reached, at any point of it. -/
structure TriesInOrder (svc : ServiceName) (binds : List ServiceAddr) (providers : List PeerId)
    (x : TunnelState × FallbackLog) : Prop where
  /-- A copy of an intent comes to a provider after it has left the one before. -/
  inOrder : ∀ before p q after, providers = before ++ p :: q :: after → ∀ spec,
    x.2.assigned q spec + (x.1.pendingByPeer.getD p []).count spec ≤ x.2.assigned p spec
  /-- When the service is asked for again, all providers have failed and all addresses are back. -/
  queried : 0 < x.2.queried →
    (∀ p ∈ providers, p ∈ x.2.failed) ∧ x.1.pendingByService.get? svc = some binds
  /-- At the end every address was put under every provider, and the service is asked for again. -/
  exhausted : x.2.outstanding = [] →
    (∀ p ∈ providers, ∀ spec, x.2.assigned p spec = (binds.map (svc, ·)).count spec) ∧
      0 < x.2.queried

/-- **Exhaustive fallback.** Every run in which no provider can be reached tries all of them in
order, and there is an end to it. -/
def ExhaustsProviders (env : Env) (svc : ServiceName) (binds : List ServiceAddr)
    (providers : List PeerId) : Prop :=
  (∀ answers, (tried svc).Guarded Answers (resolved env svc binds providers) answers →
      TriesInOrder svc binds (dedupPeers providers)
        ((tried svc).after (resolved env svc binds providers) answers)) ∧
    ∃ answers, (tried svc).Guarded Answers (resolved env svc binds providers) answers ∧
      ((tried svc).after (resolved env svc binds providers) answers).2.outstanding = []

/-! ## Dealing out the providers -/

/-- An unsuccessful lookup is reported as such. -/
theorem eq_of_declines_lookup {e : Event} {q : PeerId}
    (h : e.declines = some (.dhtLookupPeer q)) : e = .dhtPeerLookupComplete q false := by
  cases e with
  | dhtPeerLookupComplete peer connected =>
    cases connected with
    | true => cases h
    | false =>
      cases h
      rfl
  | _ => cases h

/-- A failed dial is reported as such. -/
theorem eq_of_declines_dial {e : Event} {q : PeerId} (h : e.declines = some (.dialPeer q)) :
    ∃ reason, e = .tunnelDialFailed q reason := by
  cases e with
  | tunnelDialFailed peer reason =>
    cases h
    exact ⟨reason, rfl⟩
  | dhtPeerLookupComplete peer connected => cases connected <;> cases h
  | _ => cases h

section Deal

variable {svc : ServiceName} {peer : PeerId}

/-- How a list of providers is stored: an empty one is not. -/
def storedProviders : List PeerId → Option (List PeerId)
  | [] => none
  | p :: ps => some (p :: ps)

theorem storeProviderCandidates_self (svc : ServiceName) (s : TunnelState) (ps : List PeerId) :
    (s.storeProviderCandidates svc ps).serviceProviderCandidates.get? svc =
      storedProviders (dedupPeers ps) := by
  unfold storeProviderCandidates
  split
  · rename_i h
    rw [h]
    exact FiniteMap.get?_erase_self _ _
  · rename_i h
    rw [h]
    exact FiniteMap.get?_insert_self _ _ _

/-- The next provider is the first stored one. -/
theorem nextFallbackProvider_cons {s : TunnelState} {p : PeerId} {ps : List PeerId}
    (h : s.serviceProviderCandidates.get? svc = storedProviders (p :: ps)) (hpeer : p ≠ peer) :
    (s.nextFallbackProvider svc peer).2 = some p ∧
      (s.nextFallbackProvider svc peer).1.serviceProviderCandidates.get? svc = storedProviders ps := by
  unfold nextFallbackProvider
  rw [h]
  simp only [storedProviders, popCandidate, if_neg hpeer]
  cases ps with
  | nil => exact ⟨rfl, FiniteMap.get?_erase_self _ _⟩
  | cons q qs => exact ⟨rfl, FiniteMap.get?_insert_self _ _ _⟩

/-- Without stored providers there is no next one. -/
theorem nextFallbackProvider_nil {s : TunnelState}
    (h : s.serviceProviderCandidates.get? svc = none) :
    s.nextFallbackProvider svc peer = (s, none) := by
  unfold nextFallbackProvider
  rw [h]

/-- The intents of a service, dealt out to some providers, one to each. -/
def dealt (svc : ServiceName) (ps : List PeerId) (binds : List ServiceAddr)
    (m : FiniteMap PeerId (List Intent)) : FiniteMap PeerId (List Intent) :=
  (ps.zip binds).foldl (fun m e => m.extend e.1 [(svc, e.2)]) m

/-- **Dealing.** The loop over the intents of one service deals the stored providers out, one to
each intent, and hands what is left of the intents back to the service. -/
theorem foldl_rerouteSpec_deals (binds : List ServiceAddr) (ps : List PeerId) (acc : Reroute)
    (hstored : acc.state.serviceProviderCandidates.get? svc = storedProviders ps)
    (hpeer : peer ∉ ps) :
    let r := (binds.map (svc, ·)).foldl (rerouteSpec peer) acc
    r.reassignToPeer = dealt svc ps binds acc.reassignToPeer ∧
      r.state.serviceProviderCandidates.get? svc = storedProviders (ps.drop binds.length) ∧
      r.state.pendingByService.get? svc =
        (if ps.length < binds.length then
          some (acc.state.pendingByService.getD svc [] ++ binds.drop ps.length)
        else acc.state.pendingByService.get? svc) ∧
      r.refreshServices =
        if ps.length < binds.length then insert svc acc.refreshServices else acc.refreshServices := by
  induction binds generalizing ps acc with
  | nil => simpa [dealt] using hstored
  | cons b bs ih =>
    intro r
    cases ps with
    | nil =>
      have hround : rerouteSpec peer acc (svc, b) =
          { acc with
            state := { acc.state with pendingByService := acc.state.pendingByService.extend svc [b] }
            refreshServices := insert svc acc.refreshServices } := by
        unfold rerouteSpec
        rw [nextFallbackProvider_nil hstored]
      obtain ⟨hreassign, hcandidates, hservice, hrefresh⟩ :=
        ih [] (rerouteSpec peer acc (svc, b)) (hround ▸ hstored) hpeer
      refine ⟨hreassign.trans ?_, hcandidates.trans ?_, hservice.trans ?_, hrefresh.trans ?_⟩
      · rw [hround, dealt, dealt, List.zip_nil_left, List.zip_nil_left]
      · rw [List.drop_nil, List.drop_nil]
      · rw [hround]
        cases bs with
        | nil => simp
        | cons b' bs => simp [FiniteMap.getD]
      · rw [hround]
        simp
    | cons p ps =>
      have hne : p ≠ peer := fun heq => hpeer (heq ▸ List.mem_cons_self ..)
      obtain ⟨hnext, hrest⟩ := nextFallbackProvider_cons hstored hne
      obtain ⟨candidates, hstate⟩ := acc.state.nextFallbackProvider_state svc peer
      have hround : rerouteSpec peer acc (svc, b) =
          { acc with
            state := { acc.state with serviceProviderCandidates := candidates }
            reassignToPeer := acc.reassignToPeer.extend p [(svc, b)] } := by
        have hpair : acc.state.nextFallbackProvider svc peer =
            ({ acc.state with serviceProviderCandidates := candidates }, some p) :=
          Prod.ext hstate hnext
        unfold rerouteSpec
        rw [hpair]
      rw [hstate] at hrest
      obtain ⟨hreassign, hcandidates, hservice, hrefresh⟩ :=
        ih ps (rerouteSpec peer acc (svc, b)) (hround ▸ hrest)
          fun hmem => hpeer (List.mem_cons_of_mem _ hmem)
      refine ⟨hreassign.trans ?_, hcandidates, hservice.trans ?_, hrefresh.trans ?_⟩
      · rw [hround, dealt, dealt, List.zip_cons_cons, List.foldl_cons]
      · rw [hround]
        simp
      · rw [hround]
        simp

/-- An intent that was dealt out stays where it is. -/
theorem count_le_dealt (ps : List PeerId) (binds : List ServiceAddr)
    (m : FiniteMap PeerId (List Intent)) (p : PeerId) (spec : Intent) :
    (m.getD p []).count spec ≤ ((dealt svc ps binds m).getD p []).count spec := by
  induction ps generalizing binds m with
  | nil => exact le_refl _
  | cons q ps ih =>
    cases binds with
    | nil => exact le_refl _
    | cons b bs =>
      refine le_trans ?_ (ih bs (m.extend q [(svc, b)]))
      by_cases hp : p = q
      · subst hp
        simp [FiniteMap.getD]
      · simp [FiniteMap.getD, hp]

end Deal

/-! ## The run -/

section Run

variable {svc : ServiceName} {binds : List ServiceAddr} {done rest : List PeerId} {q : PeerId}
  {x : TunnelState × FallbackLog} {i : Env × Event}

/-- Adding addresses to a service one by one. -/
theorem get?_foldl_extend_bind (binds : List ServiceAddr)
    (m : FiniteMap ServiceName (List ServiceAddr)) (hne : binds ≠ []) :
    (binds.foldl (fun m b => m.extend svc [b]) m).get? svc = some (m.getD svc [] ++ binds) := by
  induction binds generalizing m with
  | nil => exact absurd rfl hne
  | cons b bs ih =>
    rw [List.foldl_cons]
    cases bs with
    | nil => exact FiniteMap.get?_extend_self _ _ _
    | cons b' bs =>
      rw [ih _ (List.cons_ne_nil b' bs)]
      simp [FiniteMap.getD]

/-- A machine that is asked for one service by name. -/
theorem configured_service (svc : ServiceName) (binds : List ServiceAddr) :
    configured (binds.map (.addServiceTunnel svc)) =
      { new with pendingByService := binds.foldl (fun m b => m.extend svc [b]) ∅ } := by
  have hcalls (s : TunnelState) : (binds.map (ConfigCall.addServiceTunnel svc)).foldl
      ConfigCall.apply s =
        { s with pendingByService := binds.foldl (fun m b => m.extend svc [b]) s.pendingByService } := by
    induction binds generalizing s with
    | nil => rfl
    | cons b bs ih => exact ih _
  exact hcalls new

/-- All addresses of the service wait under one provider, after others have failed. -/
structure Trying (svc : ServiceName) (binds : List ServiceAddr) (done : List PeerId) (q : PeerId)
    (rest : List PeerId) (x : TunnelState × FallbackLog) : Prop where
  /-- The intents wait under the provider only. -/
  pending : ∀ p, x.1.pendingByPeer.get? p = if p = q then some (binds.map (svc, ·)) else none
  /-- The service itself has nothing left to find. -/
  byService : x.1.pendingByService.get? svc = none
  /-- The other providers are stored. -/
  stored : x.1.serviceProviderCandidates.get? svc = storedProviders rest
  /-- Nothing waits for a direct path. -/
  awaiting : x.1.awaitingHolepunch = ∅
  /-- The intents were put under the providers so far. -/
  assigned : ∀ p spec, x.2.assigned p spec =
    if p ∈ done ++ [q] then (binds.map (svc, ·)).count spec else 0
  /-- The providers before have failed. -/
  failed : ∀ p, p ∈ x.2.failed ↔ p ∈ done
  /-- The service was not asked for again. -/
  queried : x.2.queried = 0

/-- All addresses are back at the service, after every provider has failed. -/
structure Exhausted (svc : ServiceName) (binds : List ServiceAddr) (providers : List PeerId)
    (x : TunnelState × FallbackLog) : Prop where
  /-- No intent waits under a provider. -/
  pending : ∀ p, x.1.pendingByPeer.get? p = none
  /-- All addresses are back. -/
  byService : x.1.pendingByService.get? svc = some binds
  /-- No answer is outstanding. -/
  outstanding : x.2.outstanding = []
  /-- The intents were put under every provider. -/
  assigned : ∀ p spec, x.2.assigned p spec =
    if p ∈ providers then (binds.map (svc, ·)).count spec else 0
  /-- Every provider has failed. -/
  failed : ∀ p ∈ providers, p ∈ x.2.failed
  /-- The service was asked for again. -/
  queried : 0 < x.2.queried

/-- The first of the providers that were found is looked up, with all the intents, and the others
are stored. -/
theorem onDhtServiceResolved_configured (svc : ServiceName) (hbinds : binds ≠ [])
    {providers : List PeerId} (hproviders : dedupPeers providers = q :: rest) :
    ∃ candidates : FiniteMap ServiceName (List PeerId),
      candidates.get? svc = storedProviders rest ∧
      (configured (binds.map (.addServiceTunnel svc))).onDhtServiceResolved svc
        (providers.map (·, false)) =
          ({ configured (binds.map (.addServiceTunnel svc)) with
              pendingByService :=
                (configured (binds.map (.addServiceTunnel svc))).pendingByService.erase svc
              serviceProviderCandidates := candidates
              pendingByPeer := FiniteMap.extend ∅ q (binds.map (svc, ·)) },
            [.dhtLookupPeer q]) := by
  have hpending : (configured (binds.map (.addServiceTunnel svc))).pendingByService.get? svc =
      some binds := by
    rw [configured_service]
    exact get?_foldl_extend_bind binds ∅ hbinds
  have hdedup :
      dedupProviderCandidates (providers.map (·, false)) = (q :: rest).map (·, false) := by
    rw [← hproviders]
    exact dedupBy_map (·, false) [] providers
  have hnodup : (q :: rest).Nodup := hproviders ▸ nodup_dedupBy_id [] providers
  have hfallback : dedupPeers rest = rest :=
    dedupBy_id_eq_self (List.nodup_cons.mp hnodup).2 fun p _ => List.not_mem_nil
  obtain ⟨candidates, hstate⟩ := storeProviderCandidates_eq
    { configured (binds.map (.addServiceTunnel svc)) with
      pendingByService := (configured (binds.map (.addServiceTunnel svc))).pendingByService.erase svc }
    svc rest
  have hstored := storeProviderCandidates_self svc
    { configured (binds.map (.addServiceTunnel svc)) with
      pendingByService := (configured (binds.map (.addServiceTunnel svc))).pendingByService.erase svc }
    rest
  rw [hstate, hfallback] at hstored
  have hfirst : ((rest.map (·, false)).map Prod.fst : List PeerId) = rest := by
    rw [List.map_map]
    exact List.map_id _
  refine ⟨candidates, hstored, ?_⟩
  unfold onDhtServiceResolved
  rw [hpending, hdedup]
  simp only [List.map_cons, hfirst, hstate]
  rw [configured_service]
  rfl

/-- At first the intents wait under the first provider, which is looked up. -/
theorem trying_resolved (env : Env) (svc : ServiceName) (hbinds : binds ≠ [])
    {providers : List PeerId} (hproviders : dedupPeers providers = q :: rest) :
    Trying svc binds [] q rest (resolved env svc binds providers) ∧
      (resolved env svc binds providers).2.outstanding = [.dhtLookupPeer q] := by
  obtain ⟨candidates, hstored, hstep⟩ := onDhtServiceResolved_configured svc hbinds hproviders
  have hmachine : (resolved env svc binds providers).1 =
      ((configured (binds.map (.addServiceTunnel svc))).onDhtServiceResolved svc
        (providers.map (·, false))).1 := rfl
  have hlog : (resolved env svc binds providers).2 =
      FallbackLog.new.update svc (configured (binds.map (.addServiceTunnel svc)))
        (env, .dhtServiceResolved svc (providers.map (·, false)))
        ((configured (binds.map (.addServiceTunnel svc))).onDhtServiceResolved svc
          (providers.map (·, false))).2 := rfl
  have hpendings (p : PeerId) : (resolved env svc binds providers).1.pendingByPeer.get? p =
      if p = q then some (binds.map (svc, ·)) else none := by
    rw [hmachine, hstep]
    exact FiniteMap.get?_extend ∅ q p _
  rw [hstep] at hlog
  refine ⟨⟨hpendings, ?_, ?_, ?_, fun p spec => ?_, fun p => ?_, ?_⟩, ?_⟩
  · rw [hmachine, hstep]
    exact FiniteMap.get?_erase_self _ _
  · rw [hmachine, hstep]
    exact hstored
  · rw [hmachine, hstep, configured_service]
    rfl
  · have hassigned : (resolved env svc binds providers).2.assigned p spec =
        0 + (((resolved env svc binds providers).1.pendingByPeer.getD p []).count spec -
          ((configured (binds.map (.addServiceTunnel svc))).pendingByPeer.getD p []).count spec) := by
      rw [hlog]
      rfl
    rw [hassigned, FiniteMap.getD, hpendings, configured_service]
    by_cases hp : p = q <;> simp [hp, new, FiniteMap.getD]
  · rw [hlog]
    simp [FallbackLog.update, FallbackLog.new, Event.failedDial]
  · rw [hlog]
    rfl
  · rw [hlog]
    rfl

/-- The provider that is tried has all the intents. -/
theorem Trying.contains (h : Trying svc binds done q rest x) :
    x.1.pendingByPeer.contains q = true := by
  rw [FiniteMap.contains, h.pending, if_pos rfl]
  rfl

/-- After the lookup the provider is dialed. -/
theorem Trying.lookedUp (h : Trying svc binds done q rest x)
    (hout : x.2.outstanding = [.dhtLookupPeer q]) (env : Env) :
    Trying svc binds done q rest ((tried svc).step x (env, .dhtPeerLookupComplete q false)).1 ∧
      ((tried svc).step x (env, .dhtPeerLookupComplete q false)).1.2.outstanding = [.dialPeer q] := by
  have hstep : ((tried svc).step x (env, .dhtPeerLookupComplete q false)).1 =
      (x.1, x.2.update svc x.1 (env, .dhtPeerLookupComplete q false) [.dialPeer q]) := by
    have hcommands : (x.1.transition env (.dhtPeerLookupComplete q false)).2 = [.dialPeer q] :=
      if_pos h.contains
    simp only [tried, machine, Mealy.Machine.withGhost_step, hcommands]
    rfl
  rw [hstep]
  refine ⟨⟨h.pending, h.byService, h.stored, h.awaiting, fun p spec => ?_, h.failed, ?_⟩, ?_⟩
  · have hkept : (x.2.update svc x.1 (env, .dhtPeerLookupComplete q false) [.dialPeer q]).assigned p
        spec = x.2.assigned p spec + ((x.1.pendingByPeer.getD p []).count spec -
          (x.1.pendingByPeer.getD p []).count spec) := rfl
    rw [hkept, Nat.sub_self, Nat.add_zero, h.assigned]
  · exact h.queried
  · simp only [FallbackLog.update, Event.declines, hout, List.erase_cons_head]
    rfl

/-- A failed dial leads to the reroute branch. -/
theorem Trying.transition_dialFailed (h : Trying svc binds done q rest x) (env : Env)
    (reason : String) : x.1.transition env (.tunnelDialFailed q reason) =
      x.1.rerouteSpecsAfterDialFailure env q := by
  have hawaiting : x.1.awaitingHolepunch.contains q = false := by
    rw [h.awaiting]
    rfl
  simp [transition, onTunnelDialFailed, hawaiting, h.contains]

/-- Of what a reroute asks for, the lookups are answered. -/
theorem filter_awaitsAnswer_reroute (lookups : List (PeerId × List Intent))
    (services : List ServiceName) :
    ((lookups.map fun e => Command.dhtLookupPeer e.1) ++ services.map Command.getProviders).filter
      Command.awaitsAnswer = lookups.map fun e => .dhtLookupPeer e.1 := by
  have hlookups : (lookups.map fun e => Command.dhtLookupPeer e.1).filter Command.awaitsAnswer =
      lookups.map fun e => .dhtLookupPeer e.1 := by
    refine List.filter_eq_self.mpr fun c hc => ?_
    obtain ⟨e, _, rfl⟩ := List.mem_map.mp hc
    rfl
  have hqueries : (services.map Command.getProviders).filter Command.awaitsAnswer = [] := by
    refine List.filter_eq_nil_iff.mpr fun c hc => ?_
    obtain ⟨svc', _, rfl⟩ := List.mem_map.mp hc
    exact Bool.false_ne_true
  rw [List.filter_append, hlookups, hqueries, List.append_nil]

/-- Of what a reroute asks for, the queries are for the services that are refreshed. -/
theorem queriesFor_reroute (env : Env) (svc : ServiceName) (lookups : List (PeerId × List Intent))
    (services : Finset ServiceName) :
    queriesFor svc ((lookups.map fun e => Command.dhtLookupPeer e.1) ++
      (env.serviceOrder.toList services).map Command.getProviders) =
        if svc ∈ services then 1 else 0 := by
  have hlookups : queriesFor svc (lookups.map fun e => Command.dhtLookupPeer e.1) = 0 := by
    refine queriesFor_eq_zero fun c hc => ?_
    obtain ⟨e, _, rfl⟩ := List.mem_map.mp hc
    rfl
  rw [queriesFor_append, hlookups, queriesFor_enumerated, Nat.zero_add]

/-- What is left after a failed dial: the intents were dealt out to the other providers, and the
rest of them is back at the service. -/
theorem Trying.dialFailed (h : Trying svc binds done q rest x) (hq : q ∉ rest)
    (hout : x.2.outstanding = [.dialPeer q]) (env : Env) (reason : String) :
    let y := ((tried svc).step x (env, .tunnelDialFailed q reason)).1
    let m := dealt svc rest binds ∅
    (∀ p, y.1.pendingByPeer.get? p = m.get? p) ∧
      y.1.pendingByService.get? svc =
        (if rest.length < binds.length then some (binds.drop rest.length) else none) ∧
      y.1.serviceProviderCandidates.get? svc = storedProviders (rest.drop binds.length) ∧
      y.1.awaitingHolepunch = ∅ ∧
      y.2.outstanding = (m.entries env.peerOrder).map (fun e => .dhtLookupPeer e.1) ∧
      (∀ p spec, y.2.assigned p spec = x.2.assigned p spec +
        ((m.getD p []).count spec - (x.1.pendingByPeer.getD p []).count spec)) ∧
      (∀ p, p ∈ y.2.failed ↔ p = q ∨ p ∈ done) ∧
      y.2.queried = if rest.length < binds.length then 1 else 0 := by
  intro y m
  have hspecs : x.1.pendingByPeer.get? q = some (binds.map (svc, ·)) := by
    rw [h.pending, if_pos rfl]
  obtain ⟨hreassign, hstored, hservice, hrefresh⟩ := foldl_rerouteSpec_deals binds rest
    ⟨{ x.1 with pendingByPeer := x.1.pendingByPeer.erase q }, ∅, ∅⟩ h.stored hq
  change (x.1.rerouteLoop q (binds.map (svc, ·))).reassignToPeer = m at hreassign
  change (x.1.rerouteLoop q (binds.map (svc, ·))).state.serviceProviderCandidates.get? svc = _
    at hstored
  change (x.1.rerouteLoop q (binds.map (svc, ·))).state.pendingByService.get? svc = _ at hservice
  change (x.1.rerouteLoop q (binds.map (svc, ·))).refreshServices = _ at hrefresh
  have hstate : y.1 = (x.1.rerouteSpecsAfterDialFailure env q).1 :=
    congrArg Prod.fst (h.transition_dialFailed env reason)
  rw [rerouteSpecsAfterDialFailure_state hspecs, hreassign] at hstate
  have hcommands : (x.1.transition env (.tunnelDialFailed q reason)).2 =
      (m.entries env.peerOrder).map (fun e => .dhtLookupPeer e.1) ++
        (env.serviceOrder.toList (x.1.rerouteLoop q (binds.map (svc, ·))).refreshServices).map
          .getProviders := by
    rw [h.transition_dialFailed, rerouteSpecsAfterDialFailure_commands hspecs, hreassign]
  have hlog : y.2 = x.2.update svc x.1 (env, .tunnelDialFailed q reason)
      (x.1.transition env (.tunnelDialFailed q reason)).2 := rfl
  have hpending (p : PeerId) : y.1.pendingByPeer.get? p = m.get? p := by
    have herased (p : PeerId) : (x.1.pendingByPeer.erase q).get? p = none := by
      rw [FiniteMap.get?_erase, h.pending]
      split
      · rfl
      · rfl
    rw [hstate]
    refine (FiniteMap.get?_extendAll _ m env.peerOrder p).trans ?_
    cases m.get? p with
    | none => exact herased p
    | some specs => simp [FiniteMap.getD, herased]
  refine ⟨hpending, ?_, ?_, ?_, ?_, fun p spec => ?_, fun p => ?_, ?_⟩
  · rw [hstate]
    refine hservice.trans ?_
    rw [FiniteMap.getD, h.byService]
    rfl
  · rw [hstate]
    exact hstored
  · rw [hstate]
    exact h.awaiting
  · rw [hlog, hcommands]
    simp only [FallbackLog.update, Event.declines, hout, List.erase_cons_head, List.nil_append]
    exact filter_awaitsAnswer_reroute _ _
  · have hassigned : y.2.assigned p spec = x.2.assigned p spec +
        ((y.1.pendingByPeer.getD p []).count spec - (x.1.pendingByPeer.getD p []).count spec) := rfl
    have hget : y.1.pendingByPeer.getD p [] = m.getD p [] :=
      congrArg (Option.getD · []) (hpending p)
    rw [hassigned, hget]
  · have hfailed : y.2.failed = insert q x.2.failed := rfl
    rw [hfailed, Finset.mem_insert, h.failed]
  · rw [hlog, hcommands]
    simp only [FallbackLog.update, h.queried, queriesFor_reroute, hrefresh, Nat.zero_add]
    split
    · exact if_pos (Finset.mem_insert_self svc ∅)
    · exact if_neg (Finset.notMem_empty svc)

/-- The next provider is tried with all the intents, if there is only one of them. -/
theorem Trying.next {b : ServiceAddr} {r : PeerId} (h : Trying svc [b] done q (r :: rest) x)
    (hq : q ∉ r :: rest) (hr : r ∉ done) (hout : x.2.outstanding = [.dialPeer q]) (env : Env)
    (reason : String) :
    Trying svc [b] (done ++ [q]) r rest ((tried svc).step x (env, .tunnelDialFailed q reason)).1 ∧
      ((tried svc).step x (env, .tunnelDialFailed q reason)).1.2.outstanding =
        [.dhtLookupPeer r] := by
  obtain ⟨hpending, hservice, hstored, hawaiting, hopen, hassigned, hfailed, hqueried⟩ :=
    h.dialFailed hq hout env reason
  have hdealt : dealt svc (r :: rest) [b] ∅ = FiniteMap.extend ∅ r [(svc, b)] := by
    rw [dealt, List.zip_cons_cons, List.zip_nil_right]
    rfl
  have hqr : q ≠ r := fun heq => hq (heq ▸ List.mem_cons_self ..)
  rw [hdealt] at hpending hopen hassigned
  refine ⟨⟨fun p => ?_, ?_, ?_, hawaiting, fun p spec => ?_, fun p => ?_, ?_⟩, ?_⟩
  · exact (hpending p).trans (FiniteMap.get?_extend ∅ r p _)
  · rw [hservice]
    exact if_neg (by simp)
  · exact hstored
  · rw [hassigned, h.assigned, FiniteMap.getD, FiniteMap.getD, h.pending, FiniteMap.get?_extend]
    by_cases hpr : p = r
    · subst hpr
      simp [hr, Ne.symm hqr, FiniteMap.getD]
    · by_cases hpq : p = q
      · subst hpq
        simp [hpr]
      · simp [hpr, hpq]
  · rw [hfailed, List.mem_append, List.mem_singleton, or_comm]
  · rw [hqueried]
    exact if_neg (by simp)
  · rw [hopen]
    have hkeys :
        (FiniteMap.extend ∅ r [(svc, b)] : FiniteMap PeerId (List Intent)).keys = {r} := rfl
    simp [FiniteMap.entries, hkeys]

/-- After the last provider has failed all intents are back at the service. -/
theorem Trying.last (h : Trying svc binds done q [] x) (hbinds : binds ≠ [])
    (hout : x.2.outstanding = [.dialPeer q]) (env : Env) (reason : String) :
    Exhausted svc binds (done ++ [q]) ((tried svc).step x (env, .tunnelDialFailed q reason)).1 := by
  obtain ⟨hpending, hservice, _, _, hopen, hassigned, hfailed, hqueried⟩ :=
    h.dialFailed List.not_mem_nil hout env reason
  have hdealt : dealt svc [] binds ∅ = ∅ := by rw [dealt, List.zip_nil_left, List.foldl_nil]
  rw [hdealt] at hpending hopen hassigned
  have hpos : ([] : List PeerId).length < binds.length := List.length_pos_of_ne_nil hbinds
  rw [if_pos hpos] at hservice hqueried
  refine ⟨hpending, hservice, ?_, fun p spec => ?_, fun p hp => ?_, ?_⟩
  · rw [hopen]
    simp [FiniteMap.entries]
  · rw [hassigned, h.assigned]
    simp [FiniteMap.getD]
  · rw [hfailed]
    exact (List.mem_append.mp hp).elim Or.inr fun hp => Or.inl (List.mem_singleton.mp hp)
  · rw [hqueried]
    exact Nat.one_pos

/-- How far a run has come in which the providers are tried one after the other. -/
def Progress (svc : ServiceName) (binds : List ServiceAddr) (providers : List PeerId)
    (x : TunnelState × FallbackLog) : Prop :=
  (∃ done q rest, providers = done ++ q :: rest ∧ Trying svc binds done q rest x ∧
    (x.2.outstanding = [.dhtLookupPeer q] ∨ x.2.outstanding = [.dialPeer q])) ∨
  Exhausted svc binds providers x

variable {providers : List PeerId}

/-- With two providers left there is only one address. -/
theorem exists_single {r : PeerId}
    (hone : binds.length = 1 ∨ (done ++ q :: r :: rest).length = 1) : ∃ b, binds = [b] := by
  refine List.length_eq_one_iff.mp (hone.resolve_right fun hlength => ?_)
  rw [List.length_append, List.length_cons, List.length_cons] at hlength
  omega

/-- **Step.** With one address or one provider, every answer moves on to the next provider. -/
theorem Progress.step (hnodup : providers.Nodup) (hbinds : binds ≠ [])
    (hone : binds.length = 1 ∨ providers.length = 1) (h : Progress svc binds providers x)
    (hi : Answers x i) : Progress svc binds providers ((tried svc).step x i).1 := by
  obtain ⟨env, e⟩ := i
  obtain ⟨c, hc, hopen⟩ := hi
  rcases h with ⟨done, q, rest, rfl, h, hout⟩ | h
  · rcases hout with hout | hout
    · rw [hout, List.mem_singleton] at hopen
      subst hopen
      obtain rfl := eq_of_declines_lookup hc
      obtain ⟨hdial, hout'⟩ := h.lookedUp hout env
      exact Or.inl ⟨done, q, rest, rfl, hdial, Or.inr hout'⟩
    · rw [hout, List.mem_singleton] at hopen
      subst hopen
      obtain ⟨reason, rfl⟩ := eq_of_declines_dial hc
      cases rest with
      | nil => exact Or.inr (h.last hbinds hout env reason)
      | cons r rest =>
        obtain ⟨b, rfl⟩ := exists_single hone
        obtain ⟨_, hlist, hdisjoint⟩ := List.nodup_append.mp hnodup
        have hr : r ∉ done := fun hmem => hdisjoint r hmem r (by simp) rfl
        obtain ⟨hnext, hout'⟩ := h.next (List.nodup_cons.mp hlist).1 hr hout env reason
        exact Or.inl ⟨done ++ [q], r, rest, by simp, hnext, Or.inl hout'⟩
  · rw [h.outstanding] at hopen
    cases hopen

/-- A provider comes before the one that is tried if the next one was reached. -/
theorem mem_done_of_next {p r : PeerId} {before after : List PeerId}
    (hnodup : (done ++ q :: rest).Nodup) (heq : done ++ q :: rest = before ++ p :: r :: after)
    (hr : r ∈ done ++ [q]) : p ∈ done := by
  have hsplit : (done ++ [q]) ++ rest = (before ++ [p]) ++ (r :: after) := by simpa using heq
  have hrest : r ∉ rest := by
    have hparts : ((done ++ [q]) ++ rest).Nodup := by simpa using hnodup
    exact fun hmem => (List.nodup_append.mp hparts).2.2 r hr r hmem rfl
  rcases List.append_eq_append_iff.mp hsplit with ⟨l, _, hlate⟩ | ⟨l, hdone, hlate⟩
  · exact absurd (hlate ▸ List.mem_append_right l (List.mem_cons_self ..)) hrest
  · rcases List.eq_nil_or_concat l with rfl | ⟨l, z, rfl⟩
    · rw [List.nil_append] at hlate
      exact absurd (hlate ▸ List.mem_cons_self ..) hrest
    · rw [List.concat_eq_append, ← List.append_assoc] at hdone
      rw [(List.append_inj' hdone rfl).1]
      simp

/-- Trying the providers one after the other is what is expected. -/
theorem Progress.triesInOrder (hnodup : providers.Nodup) (h : Progress svc binds providers x) :
    TriesInOrder svc binds providers x := by
  rcases h with ⟨done, q, rest, rfl, h, hout⟩ | h
  · refine ⟨fun before p r after heq spec => ?_, fun hpos => ?_, fun hnil => ?_⟩
    · rw [h.assigned, h.assigned, FiniteMap.getD, h.pending]
      by_cases hr : r ∈ done ++ [q]
      · have hp := mem_done_of_next hnodup heq hr
        have hpq : p ≠ q := fun hpq =>
          (List.nodup_append.mp hnodup).2.2 p hp p (hpq ▸ List.mem_cons_self ..) rfl
        simp [hr, hp, hpq]
      · by_cases hpq : p = q
        · simp [hr, hpq]
        · simp [hr, hpq]
    · rw [h.queried] at hpos
      exact absurd hpos (lt_irrefl 0)
    · rcases hout with hout | hout
      · rw [hout] at hnil
        cases hnil
      · rw [hout] at hnil
        cases hnil
  · refine ⟨fun before p r after heq spec => ?_, fun _ => ⟨h.failed, h.byService⟩, fun _ =>
      ⟨fun p hp spec => ?_, h.queried⟩⟩
    · have hp : p ∈ providers := by simp [heq]
      have hr : r ∈ providers := by simp [heq]
      rw [h.assigned, h.assigned, if_pos hp, if_pos hr, FiniteMap.getD, h.pending]
      simp
    · rw [h.assigned, if_pos hp]

/-- A run of unsuccessful answers comes to its end. -/
theorem Trying.exists_end (env : Env) (hbinds : binds ≠ []) (h : Trying svc binds done q rest x)
    (hnodup : (done ++ q :: rest).Nodup)
    (hone : binds.length = 1 ∨ (done ++ q :: rest).length = 1)
    (hout : x.2.outstanding = [.dhtLookupPeer q]) :
    ∃ answers, (tried svc).Guarded Answers x answers ∧
      ((tried svc).after x answers).2.outstanding = [] := by
  induction rest generalizing done q x with
  | nil =>
    obtain ⟨hdial, hout'⟩ := h.lookedUp hout env
    refine ⟨[(env, .dhtPeerLookupComplete q false), (env, .tunnelDialFailed q "")],
      ⟨⟨_, rfl, ?_⟩, ⟨_, rfl, ?_⟩, trivial⟩, (hdial.last hbinds hout' env "").outstanding⟩
    · exact hout ▸ List.mem_singleton_self _
    · exact hout' ▸ List.mem_singleton_self _
  | cons r rest ih =>
    obtain ⟨b, rfl⟩ := exists_single hone
    obtain ⟨_, hlist, hdisjoint⟩ := List.nodup_append.mp hnodup
    have hr : r ∉ done := fun hmem => hdisjoint r hmem r (by simp) rfl
    obtain ⟨hdial, hout'⟩ := h.lookedUp hout env
    obtain ⟨hnext, hout''⟩ := hdial.next (List.nodup_cons.mp hlist).1 hr hout' env ""
    obtain ⟨answers, hanswers, hend⟩ := ih hnext (by simpa using hnodup) (Or.inl rfl) hout''
    refine ⟨(env, .dhtPeerLookupComplete q false) :: (env, .tunnelDialFailed q "") :: answers,
      ⟨⟨_, rfl, ?_⟩, ⟨_, rfl, ?_⟩, hanswers⟩, hend⟩
    · exact hout ▸ List.mem_singleton_self _
    · exact hout' ▸ List.mem_singleton_self _

/-- With two addresses and two providers, the first failure puts the addresses under different
providers, or sends one of them back too early. -/
theorem not_exhaustsProviders (env : Env) {b b' : ServiceAddr} {bs : List ServiceAddr}
    {p q : PeerId} {ps : List PeerId} (hproviders : dedupPeers providers = p :: q :: ps) :
    ¬ExhaustsProviders env svc (b :: b' :: bs) providers := by
  rintro ⟨hall, _⟩
  have hnodup : (p :: q :: ps).Nodup := hproviders ▸ nodup_dedupBy_id [] providers
  obtain ⟨hp, hnodup⟩ := List.nodup_cons.mp hnodup
  obtain ⟨htrying, hout⟩ := trying_resolved env svc (List.cons_ne_nil b (b' :: bs)) hproviders
  obtain ⟨hdial, hout'⟩ := htrying.lookedUp hout env
  obtain ⟨hpending, _, _, _, _, hassigned, hfailed, hqueried⟩ := hdial.dialFailed hp hout' env ""
  obtain ⟨hinOrder, hback, _⟩ :=
    hall [(env, .dhtPeerLookupComplete p false), (env, .tunnelDialFailed p "")]
      ⟨⟨_, rfl, hout ▸ List.mem_singleton_self _⟩, ⟨_, rfl, hout' ▸ List.mem_singleton_self _⟩,
        trivial⟩
  rw [hproviders] at hinOrder hback
  simp only [Mealy.Machine.after_cons, Mealy.Machine.after_nil] at hinOrder hback
  cases ps with
  | nil =>
    -- the second address is back at the service while `q` was not tried
    have hone : ([q] : List PeerId).length < (b :: b' :: bs).length := by simp
    rw [if_pos hone] at hqueried
    rw [hqueried] at hback
    have hq := (hback Nat.one_pos).1 q (by simp)
    rw [hfailed] at hq
    exact hp (hq.elim (fun heq => heq ▸ List.mem_singleton_self _) fun h => by cases h)
  | cons r ps =>
    -- the second address is under `r` and was never under `q`
    have horder := hinOrder [p] q r ps rfl (svc, b')
    have hpq : q ≠ p := fun heq => hp (heq ▸ List.mem_cons_self ..)
    have hpr : r ≠ p := fun heq => hp (by simp [heq])
    have hqr : r ≠ q := fun heq => (List.nodup_cons.mp hnodup).1 (heq ▸ List.mem_cons_self ..)
    have hdealt : 1 ≤ ((dealt svc (q :: r :: ps) (b :: b' :: bs) ∅).getD r []).count (svc, b') := by
      have hhead : dealt svc (q :: r :: ps) (b :: b' :: bs) ∅ = dealt svc ps bs
          ((FiniteMap.extend ∅ q [(svc, b)]).extend r [(svc, b')]) := by
        rw [dealt, List.zip_cons_cons, List.zip_cons_cons]
        rfl
      rw [hhead]
      refine le_trans ?_ (count_le_dealt ps bs _ r (svc, b'))
      simp [FiniteMap.getD, hqr]
    have hnone (u : PeerId) (hu : u ≠ p) : ((tried svc).step (resolved env svc (b :: b' :: bs)
        providers) (env, .dhtPeerLookupComplete p false)).1.1.pendingByPeer.getD u [] = [] := by
      rw [FiniteMap.getD, hdial.pending, if_neg hu]
      rfl
    have hwaits := congrArg (Option.getD · []) (hpending q)
    change FiniteMap.getD _ q [] = FiniteMap.getD _ q [] at hwaits
    rw [hassigned, hassigned, hdial.assigned, hdial.assigned, hnone q hpq, hnone r hpr, hwaits,
      if_neg (by simpa using hpr), if_neg (by simpa using hpq)] at horder
    simp only [List.count_nil, Nat.sub_zero, Nat.zero_add] at horder
    omega

end Run

/-- **Fallback is exhaustive exactly for one address or one provider.** -/
theorem exhaustsProviders_iff (env : Env) (svc : ServiceName) {binds : List ServiceAddr}
    {providers : List PeerId} (hbinds : binds ≠ []) (hproviders : providers ≠ []) :
    ExhaustsProviders env svc binds providers ↔
      binds.length = 1 ∨ (dedupPeers providers).length = 1 := by
  have hkeys : (dedupPeers providers).Nodup := nodup_dedupBy_id [] providers
  obtain ⟨p, ps, hdedup⟩ : ∃ p ps, dedupPeers providers = p :: ps := by
    cases providers with
    | nil => exact absurd rfl hproviders
    | cons p ps => exact ⟨p, _, rfl⟩
  constructor
  · intro h
    by_contra hmany
    rw [not_or] at hmany
    obtain ⟨hbinds', hproviders'⟩ := hmany
    obtain ⟨q, qs, rfl⟩ : ∃ q qs, ps = q :: qs := by
      refine List.exists_cons_of_ne_nil fun hnil => hproviders' ?_
      rw [hdedup, hnil]
      rfl
    obtain ⟨b, b', bs, rfl⟩ : ∃ b b' bs, binds = b :: b' :: bs := by
      rcases binds with _ | ⟨b, _ | ⟨b', bs⟩⟩
      · exact absurd rfl hbinds
      · exact absurd rfl hbinds'
      · exact ⟨b, b', bs, rfl⟩
    exact not_exhaustsProviders env hdedup h
  · intro hone
    obtain ⟨htrying, hout⟩ := trying_resolved env svc hbinds hdedup
    rw [hdedup] at hone hkeys
    refine ⟨fun answers hanswers => ?_, htrying.exists_end env hbinds hkeys hone hout⟩
    have hprogress : Progress svc binds (p :: ps)
        ((tried svc).after (resolved env svc binds providers) answers) :=
      hanswers.invariant (P := Progress svc binds (p :: ps))
        (Or.inl ⟨[], p, ps, rfl, htrying, Or.inl hout⟩)
        fun x i hx hi => hx.step hkeys hbinds hone hi
    rw [hdedup]
    exact hprogress.triesInOrder hkeys

/-- One address is tried with each of three providers. -/
theorem exhaustsProviders_iff_one_address :
    ExhaustsProviders .sorted webIntent.1 [webIntent.2] [⟨1⟩, ⟨2⟩, ⟨1⟩, ⟨3⟩] :=
  (exhaustsProviders_iff .sorted webIntent.1 (by simp) (by simp)).mpr (Or.inl rfl)

/-- Of two addresses only one is tried with the second of two providers. -/
theorem second_provider_shared :
    ¬ExhaustsProviders .sorted webIntent.1 [webIntent.2, ⟨.domain "localhost", 81⟩] [⟨1⟩, ⟨2⟩] := by
  rintro ⟨hall, _⟩
  have htries := hall [(.sorted, .dhtPeerLookupComplete ⟨1⟩ false),
    (.sorted, .tunnelDialFailed ⟨1⟩ "timeout")] ⟨⟨_, rfl, by decide⟩, ⟨_, rfl, by decide⟩, trivial⟩
  exact absurd ((htries.queried (by decide)).1 ⟨2⟩ (by decide)) (by decide)

end TunnelState

end Punchgate
