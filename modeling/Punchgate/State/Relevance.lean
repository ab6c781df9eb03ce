import Punchgate.State.Composition
import Punchgate.State.Conservation
import Punchgate.State.Representation

/-!
# What the commands are for

A lookup, a provider query, a dial or a disconnect is asked for only while some requested tunnel
waits for its result. Once the last tunnel is open, the machine asks for nothing any more, whatever
it is told, but to have the services of the node published.
-/

namespace Punchgate

/-- A command of a step serves an intent: it is about a peer or a service that still has one after
the step, or it fulfils one that was held before. -/
def TunnelState.Serves (before after : TunnelState) : Command → Prop
  | .publishServices => True
  | .dhtLookupPeer p => after.hasPendingFor p = true
  | .dhtGetProviders svc key =>
    after.pendingByService.contains svc = true ∧ key = KademliaKey.forService svc
  | .dialPeer p => after.hasHolepunchIntent p = true
  | .dialPeerWithAddrs p addrs attemptId =>
    after.awaitingHolepunch.contains p = true ∧ addrs ≠ [] ∧
      ∃ session, after.holepunchSessions.get? p = some session ∧ session.attemptId = attemptId
  | .disconnectPeer p => after.awaitingHolepunch.contains p = true ∧ p ∈ after.pendingRetryRedial
  | .spawnTunnel _ svc bind => (svc, bind) ∈ before.heldIntents
  | .kademliaBootstrap | .kademliaAddAddress _ _ | .requestRelayReservation _ _ | .shutdown => False

namespace TunnelState

variable {env : Env} {s t : TunnelState} {p : PeerId}

/-! ## Branches -/

/-- The tunnels of intents that were held are served. -/
theorem serves_spawnTunnels {specs : List Intent} (h : ∀ spec ∈ specs, spec ∈ s.heldIntents) :
    ∀ c ∈ spawnTunnels p specs, s.Serves t c := by
  intro c hc
  obtain ⟨spec, hspec, rfl⟩ := List.mem_map.mp hc
  exact h spec hspec

/-- A redial serves the peer whose intents wait for a direct connection. -/
theorem serves_redialCommand {session stored : HolePunchSession} (r : TunnelState)
    (hawaiting : t.awaitingHolepunch.contains p = true)
    (hstored : t.holepunchSessions.get? p = some stored)
    (hattempt : stored.attemptId = session.attemptId) :
    s.Serves t (r.redialCommand env p session) := by
  unfold redialCommand
  split
  · change t.hasHolepunchIntent p = true
    rw [hasHolepunchIntent, hawaiting, Bool.or_true]
  · rename_i a as _
    exact ⟨hawaiting, List.cons_ne_nil a as, stored, hstored, hattempt⟩

/-- What is pending for a peer is held. -/
theorem mem_heldIntents_of_pending {spec : Intent} (h : spec ∈ s.pendingByPeer.getD p []) :
    spec ∈ s.heldIntents := by
  have herase := intentsByPeer_erase s.pendingByPeer p
  have hmem : spec ∈ intentsByPeer s.pendingByPeer := by
    rw [← herase, Multiset.mem_add]
    exact Or.inr (Multiset.mem_coe.mpr h)
  simp only [heldIntents, Multiset.mem_add, hmem, true_or]

/-- What waits for a direct connection is held. -/
theorem mem_heldIntents_of_awaiting {spec : Intent} (h : spec ∈ s.awaitingHolepunch.getD p []) :
    spec ∈ s.heldIntents := by
  have herase := intentsByPeer_erase s.awaitingHolepunch p
  have hmem : spec ∈ intentsByPeer s.awaitingHolepunch := by
    rw [← herase, Multiset.mem_add]
    exact Or.inr (Multiset.mem_coe.mpr h)
  simp only [heldIntents, Multiset.mem_add, hmem, or_true]

/-- What is pending for a service is held. -/
theorem mem_heldIntents_of_service {svc : ServiceName} {bind : ServiceAddr}
    (h : bind ∈ s.pendingByService.getD svc []) : (svc, bind) ∈ s.heldIntents := by
  cases hget : s.pendingByService.get? svc with
  | none => simp [FiniteMap.getD, hget] at h
  | some binds =>
    rw [FiniteMap.getD, hget, Option.getD_some] at h
    have hmem : (svc, bind) ∈ intentsByService s.pendingByService := by
      rw [← intentsByService_erase hget, Multiset.mem_add]
      exact Or.inr (Multiset.mem_coe.mpr (List.mem_map_of_mem h))
    simp only [heldIntents, Multiset.mem_add, hmem, or_true, true_or]

/-- The lookups on readiness serve what is pending. -/
theorem serves_initiateLookups : ∀ c ∈ s.initiateLookups env, s.Serves s c := by
  intro c hc
  rcases List.mem_append.mp hc with hc | hc
  · obtain ⟨p, hp, rfl⟩ := List.mem_map.mp hc
    exact FiniteMap.mem_keys.mp ((env.peerOrder.mem_iff _ _).mp hp)
  · obtain ⟨svc, hsvc, rfl⟩ := List.mem_map.mp hc
    exact ⟨FiniteMap.mem_keys.mp ((env.serviceOrder.mem_iff _ _).mp hsvc), rfl⟩

/-- Routing intents to a connected peer serves them. -/
theorem serves_routeConnectedPeer {r : TunnelState} {specs : List Intent}
    (h : ∀ spec ∈ specs, spec ∈ s.heldIntents) :
    ∀ c ∈ (r.routeConnectedPeer p specs).2, s.Serves t c := by
  unfold routeConnectedPeer
  split
  · intro c hc
    cases hc
  · exact serves_spawnTunnels h

/-- After the loop over the intents of a failed peer every service to be queried has an intent. -/
theorem contains_of_refreshServices {svc : ServiceName} {specs : List Intent} {acc : Reroute}
    (hinit : ∀ svc ∈ acc.refreshServices, acc.state.pendingByService.contains svc = true)
    (h : svc ∈ (specs.foldl (rerouteSpec p) acc).refreshServices) :
    (specs.foldl (rerouteSpec p) acc).state.pendingByService.contains svc = true := by
  revert svc
  refine foldl_rerouteSpec_induction
    (P := fun r => ∀ {svc}, svc ∈ r.refreshServices → r.state.pendingByService.contains svc = true)
    (fun {svc} h => hinit svc h) ?_ ?_
  · intro r _ _ _ _ _ hr svc hsvc
    exact hr hsvc
  · intro r _ spec _ hr svc hsvc
    change (r.state.pendingByService.extend spec.1 [spec.2]).contains svc = true
    rcases Finset.mem_insert.mp hsvc with rfl | hsvc
    · simp [FiniteMap.contains]
    · have hcontains := hr hsvc
      rw [FiniteMap.contains] at hcontains ⊢
      rw [FiniteMap.get?_extend]
      split
      · rfl
      · exact hcontains

/-- The lookups after a failed dial serve the intents that were handed on. -/
theorem serves_rerouteSpecsAfterDialFailure :
    ∀ c ∈ (s.rerouteSpecsAfterDialFailure env p).2,
      s.Serves (s.rerouteSpecsAfterDialFailure env p).1 c := by
  intro c hc
  cases hpending : s.pendingByPeer.get? p with
  | none =>
    rw [rerouteSpecsAfterDialFailure_none hpending] at hc
    cases hc
  | some specs =>
    rw [rerouteSpecsAfterDialFailure_commands hpending] at hc
    rw [rerouteSpecsAfterDialFailure_state hpending]
    rcases List.mem_append.mp hc with hc | hc
    · obtain ⟨⟨q, moved⟩, hentry, rfl⟩ := List.mem_map.mp hc
      have hmoved := FiniteMap.mem_entries.mp hentry
      change ((s.pendingByPeer.erase p).extendAll _ env.peerOrder).contains q = true
      rw [FiniteMap.contains, FiniteMap.get?_extendAll, hmoved]
      rfl
    · obtain ⟨svc, hsvc, rfl⟩ := List.mem_map.mp hc
      refine ⟨contains_of_refreshServices ?_ ((env.serviceOrder.mem_iff _ _).mp hsvc), rfl⟩
      intro svc hsvc
      cases hsvc

/-- A failed dial is answered for the peer's waiting intents, or they are handed on. -/
theorem serves_onTunnelDialFailed (reason : String) :
    ∀ c ∈ (s.onTunnelDialFailed env p reason).2,
      s.Serves (s.onTunnelDialFailed env p reason).1 c := by
  intro c hc
  unfold onTunnelDialFailed at hc ⊢
  dsimp only at hc ⊢
  split at hc
  · cases hc
  · rename_i hintent
    rw [if_neg hintent]
    split at hc
    · cases hc
    · rename_i habort
      rw [if_neg habort]
      cases hawaiting : s.awaitingHolepunch.contains p with
      | false =>
        rw [hawaiting] at hc
        exact serves_rerouteSpecsAfterDialFailure c hc
      | true =>
        rw [hawaiting] at hc
        cases hsession : s.holepunchSessions.get? p with
        | none =>
          rw [hsession] at hc
          exact serves_rerouteSpecsAfterDialFailure c hc
        | some session =>
          rw [hsession] at hc
          dsimp only at hc ⊢
          split at hc
          · cases hc
          · rename_i hphase
            rw [if_neg hphase]
            split at hc
            · cases hc
            · rename_i hdispatched
              rw [if_neg hdispatched]
              rw [List.mem_singleton.mp hc]
              exact serves_redialCommand _ hawaiting (FiniteMap.get?_insert_self _ _ _) rfl

/-- A failed attempt is answered with a disconnect while intents wait, or it opens their tunnels. -/
theorem serves_retryHolepunchAttempt (attemptId : ℕ) :
    ∀ c ∈ (s.retryHolepunchAttempt p attemptId).2,
      s.Serves (s.retryHolepunchAttempt p attemptId).1 c := by
  intro c hc
  unfold retryHolepunchAttempt at hc ⊢
  split at hc
  · cases hc
  · split at hc
    · cases hc
    · rename_i hattempt
      rw [if_neg hattempt]
      split at hc
      · cases hc
      · rename_i hphase
        rw [if_neg hphase]
        split at hc
        · cases hc
        · rename_i specs hawaiting
          split at hc
          · refine serves_spawnTunnels (fun spec hspec => ?_) c hc
            exact mem_heldIntents_of_awaiting (p := p) (by rwa [FiniteMap.getD, hawaiting])
          · rename_i hretries
            dsimp only
            rw [if_neg hretries, List.mem_singleton.mp hc]
            exact ⟨FiniteMap.contains_of_get? hawaiting, Finset.mem_insert_self _ _⟩

/-- The loss of the last connection is answered with a dial while intents wait. -/
theorem serves_onFullyDisconnected (hs : s.Represents) :
    ∀ c ∈ (s.onFullyDisconnected env p).2, s.Serves (s.onFullyDisconnected env p).1 c := by
  intro c hc
  unfold onFullyDisconnected at hc ⊢
  dsimp only at hc ⊢
  by_cases hredial : p ∈ s.pendingRetryRedial
  · rw [if_pos hredial] at hc ⊢
    -- a peer to be redialed has used a retry, and retries are counted while intents wait
    have hawaiting : s.awaitingHolepunch.contains p = true :=
      FiniteMap.mem_keys.mp (hs.holepunchRetryAttempts (hs.pendingRetryRedial p hredial))
    rw [List.mem_singleton.mp hc]
    dsimp only
    split
    · rename_i session hsession
      exact serves_redialCommand _ hawaiting hsession rfl
    · change (s.pendingByPeer.contains p || s.awaitingHolepunch.contains p) = true
      rw [hawaiting, Bool.or_true]
  · rw [if_neg hredial] at hc ⊢
    split at hc
    · rw [List.mem_singleton.mp hc]
      change ((s.pendingByPeer.extend p _).contains p || _) = true
      simp [FiniteMap.contains]
    · cases hc

/-- The answer of a provider query is answered for the intents of the service. -/
theorem serves_onDhtServiceResolved (svc : ServiceName) (providers : List (PeerId × Bool)) :
    ∀ c ∈ (s.onDhtServiceResolved svc providers).2,
      s.Serves (s.onDhtServiceResolved svc providers).1 c := by
  intro c hc
  unfold onDhtServiceResolved at hc ⊢
  split at hc
  · cases hc
  · rename_i binds hbinds
    split at hc
    · rw [List.mem_singleton.mp hc]
      exact ⟨FiniteMap.contains_of_get? hbinds, rfl⟩
    · rename_i provider connected fallback _
      dsimp only at hc ⊢
      split at hc
      · refine serves_routeConnectedPeer (fun spec hspec => ?_) c hc
        obtain ⟨bind, hbind, rfl⟩ := List.mem_map.mp hspec
        exact mem_heldIntents_of_service (by rwa [FiniteMap.getD, hbinds])
      · rename_i hconnected
        rw [if_neg hconnected, List.mem_singleton.mp hc]
        change (FiniteMap.extend _ provider _).contains provider = true
        simp [FiniteMap.contains]

/-- **Step.** Every command of a step serves an intent. -/
theorem Represents.serves (hs : s.Represents) (env : Env) (e : Event) :
    ∀ c ∈ (s.transition env e).2, s.Serves (s.transition env e).1 c := by
  have hnone : ∀ c ∈ ([] : List Command), s.Serves s c := fun c hc => by cases hc
  cases e with
  | phaseChanged old new =>
    cases new with
    | ready =>
      intro c hc
      rcases List.mem_cons.mp hc with rfl | hc
      · trivial
      · exact serves_initiateLookups c hc
    | joining => exact hnone
    | shuttingDown => exact hnone
  | relayReservationAccepted relayPeer =>
    intro c hc
    rw [List.mem_singleton.mp hc]
    trivial
  | dhtPeerLookupComplete peer connected =>
    cases connected with
    | true =>
      intro c hc
      cases hpending : s.pendingByPeer.get? peer with
      | none =>
        simp only [transition, hpending, List.not_mem_nil] at hc
      | some specs =>
        simp only [transition, hpending] at hc
        refine serves_routeConnectedPeer (fun spec hspec => ?_) c hc
        exact mem_heldIntents_of_pending (p := peer) (by rwa [FiniteMap.getD, hpending])
    | false =>
      intro c hc
      rw [transition] at hc
      split at hc
      · rename_i hpending
        rw [List.mem_singleton.mp hc]
        change (s.pendingByPeer.contains peer || s.awaitingHolepunch.contains peer) = true
        rw [hpending, Bool.true_or]
      · cases hc
  | dhtServiceResolved svc providers => exact serves_onDhtServiceResolved svc providers
  | dhtServiceFailed svc reason =>
    intro c hc
    rw [transition] at hc
    split at hc
    · rename_i hpending
      rw [List.mem_singleton.mp hc]
      exact ⟨hpending, rfl⟩
    · cases hc
  | tunnelDialFailed peer reason => exact serves_onTunnelDialFailed reason
  | tunnelPeerConnected peer relayed =>
    cases relayed with
    | true =>
      intro c hc
      have hquiet : (s.onRelayedConnection peer).2 = [] := by
        unfold onRelayedConnection
        dsimp only
        split <;> rfl
      rw [transition, hquiet] at hc
      cases hc
    | false =>
      refine serves_spawnTunnels fun spec hspec => ?_
      rcases List.mem_append.mp hspec with hspec | hspec
      · exact mem_heldIntents_of_pending hspec
      · exact mem_heldIntents_of_awaiting hspec
  | holePunchAttemptFailed peer attemptId reason => exact serves_retryHolepunchAttempt attemptId
  | holePunchAttemptTimeout peer attemptId => exact serves_retryHolepunchAttempt attemptId
  | connectionLost peer remaining =>
    intro c hc
    rw [transition] at hc ⊢
    split at hc
    · rename_i hremaining
      rw [if_pos hremaining]
      exact serves_onFullyDisconnected hs c hc
    · cases hc
  | peerIdentified | holePunchAttemptStarted =>
    intro c hc
    cases hc
  | _ => exact hnone

/-- **Every command serves an intent.** At every point of every run of a configured machine, what it
asks for is asked for a peer or a service that still has a tunnel to open, and the tunnels that it
opens are those of intents held so far. -/
theorem commands_serve_intents (calls : List ConfigCall) (inputs : List (Env × Event))
    (i : Env × Event) :
    ∀ c ∈ (machine.step (machine.after (configured calls) inputs) i).2,
      (machine.after (configured calls) inputs).Serves
        (machine.after (configured calls) (inputs ++ [i])) c := by
  rw [Mealy.Machine.after_concat]
  have hrepresents : (machine.after (configured calls) inputs).Represents :=
    Mealy.Machine.invariant inputs (represents_configured calls) fun _ i hs => hs.step i.1 i.2
  exact hrepresents.serves i.1 i.2

/-- A peer that answers is dialed for the tunnel that is pending for it. -/
theorem commands_serve_intents_dial :
    (machine.after (configured [webTunnel]) []).Serves
      (machine.after (configured [webTunnel]) ([] ++ [(Env.sorted, .dhtPeerLookupComplete ⟨1⟩ false)]))
      (.dialPeer ⟨1⟩) :=
  commands_serve_intents [webTunnel] [] (Env.sorted, .dhtPeerLookupComplete ⟨1⟩ false)
    (.dialPeer ⟨1⟩) (by decide)

/-! ## Quiescence -/

/-- The machine holds no intent exactly if none of its maps lists one. -/
theorem Represents.heldIntents_eq_zero_iff (hs : s.Represents) :
    s.heldIntents = 0 ↔ (∀ p, s.hasHolepunchIntent p = false) ∧
      ∀ svc, s.pendingByService.contains svc = false := by
  constructor
  · intro hzero
    have hnot (spec : Intent) : spec ∉ s.heldIntents := by
      rw [hzero]
      exact Multiset.notMem_zero spec
    constructor
    · intro p
      rw [hasHolepunchIntent, Bool.or_eq_false_iff, FiniteMap.contains_eq_false,
        FiniteMap.contains_eq_false]
      constructor
      · cases hget : s.pendingByPeer.get? p with
        | none => rfl
        | some specs =>
          obtain ⟨spec, hspec⟩ := List.exists_mem_of_ne_nil specs (hs.pendingByPeer p specs hget)
          refine absurd (mem_heldIntents_of_pending (p := p) ?_) (hnot spec)
          rwa [FiniteMap.getD, hget]
      · cases hget : s.awaitingHolepunch.get? p with
        | none => rfl
        | some specs =>
          obtain ⟨spec, hspec⟩ := List.exists_mem_of_ne_nil specs (hs.awaitingHolepunch p specs hget)
          refine absurd (mem_heldIntents_of_awaiting (p := p) ?_) (hnot spec)
          rwa [FiniteMap.getD, hget]
    · intro svc
      rw [FiniteMap.contains_eq_false]
      cases hget : s.pendingByService.get? svc with
      | none => rfl
      | some binds =>
        obtain ⟨bind, hbind⟩ := List.exists_mem_of_ne_nil binds (hs.pendingByService svc binds hget)
        refine absurd (mem_heldIntents_of_service ?_) (hnot (svc, bind))
        rwa [FiniteMap.getD, hget]
  · rintro ⟨hpeers, hservices⟩
    have hpending : s.pendingByPeer = ∅ := by
      ext p
      have hp := hpeers p
      rw [hasHolepunchIntent, Bool.or_eq_false_iff, FiniteMap.contains_eq_false] at hp
      simp [hp.1]
    have hawaiting : s.awaitingHolepunch = ∅ := by
      ext p
      have hp := hpeers p
      rw [hasHolepunchIntent, Bool.or_eq_false_iff, FiniteMap.contains_eq_false,
        FiniteMap.contains_eq_false] at hp
      simp [hp.2]
    have hservice : s.pendingByService = ∅ := by
      ext svc
      simp [FiniteMap.contains_eq_false.mp (hservices svc)]
    rw [heldIntents, hpending, hawaiting, hservice]
    rfl

/-- A step from a machine that holds nothing asks at most for publishing. -/
theorem Represents.quiet_step (hs : s.Represents) (hzero : s.heldIntents = 0) (env : Env)
    (e : Event) : (s.transition env e).1.heldIntents = 0 ∧
      ∀ c ∈ (s.transition env e).2, c = .publishServices := by
  have hconserved : (s.transition env e).1.heldIntents + spawnedIntents (s.transition env e).2 = 0 :=
    (s.transition_conserves env e).trans hzero
  have hafter : (s.transition env e).1.heldIntents = 0 := (add_eq_zero.mp hconserved).1
  obtain ⟨hpeers, hservices⟩ := (hs.step env e).heldIntents_eq_zero_iff.mp hafter
  have hunwanted (p : PeerId) : (s.transition env e).1.pendingByPeer.contains p = false ∧
      (s.transition env e).1.awaitingHolepunch.contains p = false :=
    Bool.or_eq_false_iff.mp (hpeers p)
  refine ⟨hafter, fun c hc => ?_⟩
  have hserves := hs.serves env e c hc
  cases c with
  | publishServices => rfl
  | dhtLookupPeer p => exact absurd hserves (Bool.eq_false_iff.mp (hunwanted p).1)
  | dhtGetProviders svc key => exact absurd hserves.1 (Bool.eq_false_iff.mp (hservices svc))
  | dialPeer p => exact absurd hserves (Bool.eq_false_iff.mp (hpeers p))
  | dialPeerWithAddrs p addrs id =>
    exact absurd hserves.1 (Bool.eq_false_iff.mp (hunwanted p).2)
  | disconnectPeer p => exact absurd hserves.1 (Bool.eq_false_iff.mp (hunwanted p).2)
  | spawnTunnel p svc bind =>
    have hmem : (svc, bind) ∈ s.heldIntents := hserves
    rw [hzero] at hmem
    exact absurd hmem (Multiset.notMem_zero _)
  | kademliaBootstrap | kademliaAddAddress | requestRelayReservation | shutdown =>
    exact hserves.elim

/-- A machine that holds an intent can be told something that it answers with more than
publishing. -/
theorem Represents.speaks (hs : s.Represents) (hheld : s.heldIntents ≠ 0) (env : Env) :
    ∃ e, ∃ c ∈ (s.transition env e).2, c ≠ .publishServices := by
  rw [ne_eq, hs.heldIntents_eq_zero_iff, not_and_or, not_forall, not_forall] at hheld
  rcases hheld with ⟨p, hp⟩ | ⟨svc, hsvc⟩
  · -- a direct connection opens the tunnels of the peer
    have hintents : s.pendingByPeer.getD p [] ++ s.awaitingHolepunch.getD p [] ≠ [] := by
      intro hnil
      obtain ⟨hpending, hawaiting⟩ := List.append_eq_nil_iff.mp hnil
      apply hp
      rw [hasHolepunchIntent, Bool.or_eq_false_iff, FiniteMap.contains_eq_false,
        FiniteMap.contains_eq_false]
      constructor
      · cases hget : s.pendingByPeer.get? p with
        | none => rfl
        | some specs =>
          rw [FiniteMap.getD, hget] at hpending
          exact absurd hpending (hs.pendingByPeer p specs hget)
      · cases hget : s.awaitingHolepunch.get? p with
        | none => rfl
        | some specs =>
          rw [FiniteMap.getD, hget] at hawaiting
          exact absurd hawaiting (hs.awaitingHolepunch p specs hget)
    obtain ⟨spec, hspec⟩ := List.exists_mem_of_ne_nil _ hintents
    refine ⟨.tunnelPeerConnected p false, .spawnTunnel p spec.1 spec.2, ?_, by simp⟩
    exact mem_spawnTunnels.mpr ⟨rfl, hspec⟩
  · -- a failed query is made again
    have hcontains := Bool.eq_true_of_not_eq_false hsvc
    refine ⟨.dhtServiceFailed svc "", .getProviders svc, ?_, by simp [Command.getProviders]⟩
    rw [transition, if_pos hcontains]
    exact List.mem_cons_self

/-- **Quiescence.** A configured machine falls silent, whatever it is told from then on, exactly when
it has opened all requested tunnels: then it only ever asks to have services published. -/
theorem silent_iff_fulfilled (calls : List ConfigCall) (inputs : List (Env × Event)) :
    (∀ later, ∀ c ∈ machine.outputs (machine.after (configured calls) inputs) later,
        c = .publishServices) ↔
      spawnedIntents (machine.outputs (configured calls) inputs) = requestedIntents calls := by
  have hrepresents : (machine.after (configured calls) inputs).Represents :=
    Mealy.Machine.invariant inputs (represents_configured calls) fun _ i hs => hs.step i.1 i.2
  have hconserved := run_conserves (configured calls) inputs
  rw [heldIntents_configured] at hconserved
  have hfulfilled : spawnedIntents (machine.outputs (configured calls) inputs) =
      requestedIntents calls ↔ (machine.after (configured calls) inputs).heldIntents = 0 := by
    constructor
    · intro hspawned
      rwa [hspawned, add_eq_right] at hconserved
    · intro hzero
      rwa [hzero, zero_add] at hconserved
  rw [hfulfilled]
  constructor
  · intro hsilent
    by_contra hheld
    obtain ⟨e, c, hc, hne⟩ := hrepresents.speaks hheld Env.sorted
    apply hne
    apply hsilent [(Env.sorted, e)]
    exact List.mem_append_left _ hc
  · intro hzero later
    have hfree : machine.Guarded (fun _ _ => True)
        (machine.after (configured calls) inputs) later := .of_forall_mem fun _ _ _ => trivial
    exact hfree.forall_outputs (P := fun s => s.Represents ∧ s.heldIntents = 0)
      ⟨hrepresents, hzero⟩
      (fun s i hs _ => ⟨hs.1.step i.1 i.2, (hs.1.quiet_step hs.2 i.1 i.2).1⟩)
      fun s i hs _ => (hs.1.quiet_step hs.2 i.1 i.2).2

end TunnelState

end Punchgate
