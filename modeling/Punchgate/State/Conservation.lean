import Punchgate.State.App
import Punchgate.State.Refinement

/-!
# Conservation of tunnel intents

Every requested tunnel is an intent that the machine holds in one of three maps until
it spawns the tunnel. The intents held and the intents spawned always add up to the
requested ones, as multisets.
-/

namespace Punchgate

/-- The intents stored in a map keyed by peer. -/
def intentsByPeer (m : FiniteMap PeerId (List Intent)) : Multiset Intent :=
  m.total fun _ specs => (specs : Multiset Intent)

/-- The intents stored in a map from services to bind addresses. -/
def intentsByService (m : FiniteMap ServiceName (List ServiceAddr)) : Multiset Intent :=
  m.total fun svc binds => ((binds.map (svc, ·) : List Intent) : Multiset Intent)

/-- The intents the machine holds: pending by peer, pending by service, or waiting for a
direct connection. -/
def TunnelState.heldIntents (s : TunnelState) : Multiset Intent :=
  intentsByPeer s.pendingByPeer + intentsByService s.pendingByService +
    intentsByPeer s.awaitingHolepunch

/-- The intent a command fulfils. -/
def Command.spawned : Command → Multiset Intent
  | .spawnTunnel _ svc bind => {(svc, bind)}
  | _ => 0

/-- The intents a list of commands fulfils. -/
def spawnedIntents (commands : List Command) : Multiset Intent :=
  (commands.map Command.spawned).sum

/-- The intent a configuration call requests. -/
def ConfigCall.requested : ConfigCall → Multiset Intent
  | .addPeerTunnel _ svc bind | .addServiceTunnel svc bind => {(svc, bind)}
  | .setNatMapping _ => 0

/-- The intents a list of configuration calls requests. -/
def requestedIntents (calls : List ConfigCall) : Multiset Intent :=
  (calls.map ConfigCall.requested).sum

/-! ## Accounting for the maps -/

/-- Appending intents of a peer adds them. -/
theorem intentsByPeer_extend (m : FiniteMap PeerId (List Intent)) (p : PeerId)
    (specs : List Intent) :
    intentsByPeer (m.extend p specs) = intentsByPeer m + (specs : Multiset Intent) :=
  m.total_extend p specs _ (fun _ => rfl) fun _ xs ys => (Multiset.coe_add xs ys).symm

/-- Appending all lists of another map adds its intents. -/
theorem intentsByPeer_extendAll (m n : FiniteMap PeerId (List Intent))
    (order : Enumeration PeerId) :
    intentsByPeer (m.extendAll n order) = intentsByPeer m + intentsByPeer n :=
  m.total_extendAll n order _ (fun _ => rfl) fun _ xs ys => (Multiset.coe_add xs ys).symm

/-- Taking out the intents of a peer, if there are any. -/
theorem intentsByPeer_erase (m : FiniteMap PeerId (List Intent)) (p : PeerId) :
    intentsByPeer (m.erase p) + (m.getD p [] : Multiset Intent) = intentsByPeer m := by
  have herase := m.total_erase p fun _ specs => (specs : Multiset Intent)
  cases hget : m.get? p with
  | none => simpa [intentsByPeer, FiniteMap.getD, hget] using herase
  | some specs => simpa [intentsByPeer, FiniteMap.getD, hget] using herase

/-- Appending a bind address of a service adds one intent. -/
theorem intentsByService_extend (m : FiniteMap ServiceName (List ServiceAddr))
    (svc : ServiceName) (binds : List ServiceAddr) :
    intentsByService (m.extend svc binds) =
      intentsByService m + ((binds.map (svc, ·) : List Intent) : Multiset Intent) := by
  refine m.total_extend svc binds _ (fun _ => rfl) fun svc xs ys => ?_
  rw [List.map_append]
  exact (Multiset.coe_add _ _).symm

/-- Taking out the bind addresses of a service. -/
theorem intentsByService_erase {m : FiniteMap ServiceName (List ServiceAddr)}
    {svc : ServiceName} {binds : List ServiceAddr} (h : m.get? svc = some binds) :
    intentsByService (m.erase svc) + ((binds.map (svc, ·) : List Intent) : Multiset Intent) =
      intentsByService m :=
  FiniteMap.total_erase_of_get? h _

/-- Opening the tunnels of a list of intents fulfils exactly these. -/
theorem spawnedIntents_spawnTunnels (p : PeerId) (specs : List Intent) :
    spawnedIntents (spawnTunnels p specs) = (specs : Multiset Intent) := by
  induction specs with
  | nil => rfl
  | cons spec specs ih =>
    have hcons : spawnedIntents (spawnTunnels p (spec :: specs)) =
        {spec} + spawnedIntents (spawnTunnels p specs) := rfl
    rw [hcons, ih, ← Multiset.cons_coe, ← Multiset.singleton_add]

/-- Commands other than opened tunnels fulfil nothing. -/
theorem spawnedIntents_eq_zero {cs : List Command} (h : ∀ c ∈ cs, c.spawned = 0) :
    spawnedIntents cs = 0 :=
  List.sum_eq_zero fun _ hx => by
    obtain ⟨c, hc, rfl⟩ := List.mem_map.mp hx
    exact h c hc

/-- Dials fulfil nothing. -/
theorem spawned_of_dials {p : PeerId} {c : Command} (h : c.dials p = true) : c.spawned = 0 := by
  cases c <;> simp_all [Command.dials, Command.spawned]

/-! ## The branches -/

namespace TunnelState

/-- A branch moves intents between the maps and its commands without loss. -/
def Conserves (s : TunnelState) (r : TunnelState × List Command) : Prop :=
  r.1.heldIntents + spawnedIntents r.2 = s.heldIntents

/-- Doing nothing but asking for lookups and dials conserves the intents. -/
theorem conserves_of_same {s t : TunnelState} {cs : List Command}
    (hpeer : t.pendingByPeer = s.pendingByPeer)
    (hservice : t.pendingByService = s.pendingByService)
    (hawaiting : t.awaitingHolepunch = s.awaitingHolepunch)
    (hcs : ∀ c ∈ cs, c.spawned = 0) : s.Conserves (t, cs) := by
  unfold Conserves
  rw [spawnedIntents_eq_zero hcs, add_zero]
  simp only [heldIntents, hpeer, hservice, hawaiting]

/-- Routing intents that were taken out before adds them to what is held or spawned. -/
theorem routeConnectedPeer_held (s : TunnelState) (p : PeerId) (specs : List Intent) :
    (s.routeConnectedPeer p specs).1.heldIntents +
        spawnedIntents (s.routeConnectedPeer p specs).2 =
      s.heldIntents + (specs : Multiset Intent) := by
  unfold routeConnectedPeer
  split
  · have hqueue : (s.queueForDirect p specs).heldIntents =
        s.heldIntents + (specs : Multiset Intent) := by
      simp only [heldIntents, queueForDirect, intentsByPeer_extend]
      abel
    rw [hqueue]
    exact add_zero _
  · rw [spawnedIntents_spawnTunnels]

/-- The reroute loop moves every intent to another peer or back to its service. -/
theorem foldl_rerouteSpec_held (p : PeerId) (specs : List Intent) (acc : Reroute) :
    intentsByService (specs.foldl (rerouteSpec p) acc).state.pendingByService +
        intentsByPeer (specs.foldl (rerouteSpec p) acc).reassignToPeer =
      intentsByService acc.state.pendingByService + intentsByPeer acc.reassignToPeer +
        (specs : Multiset Intent) := by
  induction specs generalizing acc with
  | nil => exact (add_zero _).symm
  | cons spec specs ih =>
    have hround : intentsByService (rerouteSpec p acc spec).state.pendingByService +
          intentsByPeer (rerouteSpec p acc spec).reassignToPeer =
        intentsByService acc.state.pendingByService + intentsByPeer acc.reassignToPeer +
          {spec} := by
      rcases rerouteSpec_cases p acc spec with ⟨candidates, next, _, heq⟩ | ⟨candidates, heq⟩
      · simp only [heq, intentsByPeer_extend, Multiset.coe_singleton]
        abel
      · simp only [heq, intentsByService_extend, List.map_cons, List.map_nil,
          Multiset.coe_singleton]
        abel
    rw [List.foldl_cons, ih, hround, ← Multiset.cons_coe, ← Multiset.singleton_add]
    abel

/-- Rerouting conserves the intents. -/
theorem rerouteSpecsAfterDialFailure_conserves (env : Env) (s : TunnelState) (p : PeerId) :
    s.Conserves (s.rerouteSpecsAfterDialFailure env p) := by
  have hcs : spawnedIntents (s.rerouteSpecsAfterDialFailure env p).2 = 0 := by
    refine spawnedIntents_eq_zero fun c hc => ?_
    rcases mem_rerouteSpecsAfterDialFailure_commands hc with ⟨q, rfl⟩ | ⟨svc, rfl⟩ <;> rfl
  cases hpending : s.pendingByPeer.get? p with
  | none =>
    rw [rerouteSpecsAfterDialFailure_none hpending]
    exact add_zero _
  | some specs =>
    have hloop := foldl_rerouteSpec_held p specs
      ⟨{ s with pendingByPeer := s.pendingByPeer.erase p }, ∅, ∅⟩
    have herase := intentsByPeer_erase s.pendingByPeer p
    have hempty : intentsByPeer ∅ = 0 := FiniteMap.total_empty _
    simp only [hempty, add_zero] at hloop
    simp only [FiniteMap.getD, hpending, Option.getD_some] at herase
    unfold Conserves
    rw [hcs, add_zero, rerouteSpecsAfterDialFailure_state hpending]
    simp only [heldIntents, intentsByPeer_extendAll, ← herase]
    calc
      _ = intentsByPeer (s.pendingByPeer.erase p) +
          (intentsByService (s.rerouteLoop p specs).state.pendingByService +
            intentsByPeer (s.rerouteLoop p specs).reassignToPeer) +
          intentsByPeer s.awaitingHolepunch := by abel
      _ = intentsByPeer (s.pendingByPeer.erase p) +
          (intentsByService s.pendingByService + (specs : Multiset Intent)) +
          intentsByPeer s.awaitingHolepunch := by
        unfold rerouteLoop
        rw [hloop]
      _ = _ := by abel

/-- The branch for a failed dial conserves the intents. -/
theorem onTunnelDialFailed_conserves (env : Env) (s : TunnelState) (p : PeerId)
    (reason : String) : s.Conserves (s.onTunnelDialFailed env p reason) := by
  rcases s.onTunnelDialFailed_cases env p reason with ⟨_, heq⟩ | ⟨_, _, _, _, _, heq⟩ |
    ⟨session, c, _, _, _, _, hc, heq⟩ | ⟨_, _, heq⟩
  · rw [heq]
    exact add_zero _
  · rw [heq]
    exact add_zero _
  · rw [heq]
    refine conserves_of_same rfl rfl rfl fun c' hc' => ?_
    rw [List.mem_singleton.mp hc']
    exact spawned_of_dials hc
  · rw [heq]
    exact s.rerouteSpecsAfterDialFailure_conserves env p

/-- The branch for a resolved service conserves the intents. -/
theorem onDhtServiceResolved_conserves (s : TunnelState) (svc : ServiceName)
    (providers : List (PeerId × Bool)) : s.Conserves (s.onDhtServiceResolved svc providers) := by
  unfold onDhtServiceResolved
  split
  · exact add_zero _
  · rename_i binds hsvc
    split
    · refine conserves_of_same rfl rfl rfl fun c hc => ?_
      rw [List.mem_singleton.mp hc]
      rfl
    · rename_i provider connected fallback hdedup
      obtain ⟨candidates, hstore⟩ := storeProviderCandidates_eq
        { s with pendingByService := s.pendingByService.erase svc } svc (fallback.map Prod.fst)
      have hservice := intentsByService_erase hsvc
      simp only [hstore]
      split
      · unfold Conserves
        rw [routeConnectedPeer_held]
        simp only [heldIntents, ← hservice]
        abel
      · unfold Conserves
        have hlookup : spawnedIntents [.dhtLookupPeer provider] = 0 := rfl
        simp only [hlookup, heldIntents, intentsByPeer_extend, ← hservice]
        abel

/-- The branch for a relayed connection conserves the intents. -/
theorem onRelayedConnection_conserves (s : TunnelState) (p : PeerId) :
    s.Conserves (s.onRelayedConnection p) := by
  unfold onRelayedConnection
  dsimp only
  cases hpending : s.pendingByPeer.get? p with
  | none => exact add_zero _
  | some specs =>
    have herase := intentsByPeer_erase s.pendingByPeer p
    simp only [FiniteMap.getD, hpending, Option.getD_some] at herase
    have hnone : spawnedIntents [] = 0 := rfl
    unfold Conserves
    simp only [hnone, heldIntents, queueForDirect, intentsByPeer_extend, ← herase]
    abel

/-- The branch for a direct connection conserves the intents. -/
theorem onDirectConnection_conserves (s : TunnelState) (p : PeerId) :
    s.Conserves (s.onDirectConnection p) := by
  have hpending := intentsByPeer_erase s.pendingByPeer p
  have hawaiting := intentsByPeer_erase s.awaitingHolepunch p
  unfold Conserves onDirectConnection
  simp only [spawnedIntents_spawnTunnels, heldIntents, clearRetryState, ← Multiset.coe_add,
    ← hpending, ← hawaiting]
  abel

/-- The branch for a failed attempt conserves the intents. -/
theorem retryHolepunchAttempt_conserves (s : TunnelState) (p : PeerId) (attemptId : ℕ) :
    s.Conserves (s.retryHolepunchAttempt p attemptId) := by
  rcases s.retryHolepunchAttempt_cases p attemptId with ⟨_, heq⟩ |
    ⟨specs, _, hawaiting, _, heq⟩ | ⟨_, _, _, _, _, heq⟩
  · rw [heq]
    exact add_zero _
  · have hget : s.awaitingHolepunch.getD p [] = specs := by
      rw [FiniteMap.getD, show s.awaitingHolepunch.get? p = some specs from hawaiting]
      rfl
    have herase := intentsByPeer_erase s.awaitingHolepunch p
    rw [hget] at herase
    rw [heq]
    unfold Conserves
    simp only [spawnedIntents_spawnTunnels, heldIntents, clearRetryState, ← herase]
    abel
  · rw [heq]
    refine conserves_of_same rfl rfl rfl fun c hc => ?_
    rw [List.mem_singleton.mp hc]
    rfl

/-- The branch for the loss of the last connection conserves the intents. -/
theorem onFullyDisconnected_conserves (env : Env) (s : TunnelState) (p : PeerId) :
    s.Conserves (s.onFullyDisconnected env p) := by
  rcases s.onFullyDisconnected_cases env p with ⟨c, _, hc, heq⟩ | ⟨specs, _, hawaiting, heq⟩ |
    ⟨_, _, heq⟩
  · rw [heq]
    refine conserves_of_same rfl rfl rfl fun c' hc' => ?_
    rw [List.mem_singleton.mp hc']
    exact spawned_of_dials hc
  · have hget : s.awaitingHolepunch.getD p [] = specs := by
      rw [FiniteMap.getD, show s.awaitingHolepunch.get? p = some specs from hawaiting]
      rfl
    have herase := intentsByPeer_erase s.awaitingHolepunch p
    have hdial : spawnedIntents [.dialPeer p] = 0 := rfl
    rw [hget] at herase
    rw [heq]
    unfold Conserves
    simp only [hdial, heldIntents, clearRetryState, intentsByPeer_extend, ← herase]
    abel
  · rw [heq]
    exact add_zero _

/-- A finished peer lookup conserves the intents. -/
theorem dhtPeerLookupComplete_conserves (env : Env) (s : TunnelState) (p : PeerId)
    (connected : Bool) : s.Conserves (s.transition env (.dhtPeerLookupComplete p connected)) := by
  cases connected with
  | false =>
    refine conserves_of_same rfl rfl rfl fun c hc => ?_
    split at hc
    · rw [List.mem_singleton.mp hc]
      rfl
    · cases hc
  | true =>
    simp only [transition]
    cases hpending : s.pendingByPeer.get? p with
    | none => exact add_zero _
    | some specs =>
      have herase := intentsByPeer_erase s.pendingByPeer p
      simp only [FiniteMap.getD, hpending, Option.getD_some] at herase
      refine (routeConnectedPeer_held _ p specs).trans ?_
      simp only [heldIntents, ← herase]
      abel

/-- **Step.** No event loses an intent or spawns one twice. -/
theorem transition_conserves (env : Env) (s : TunnelState) (e : Event) :
    s.Conserves (s.transition env e) := by
  cases e with
  | dhtPeerLookupComplete p connected => exact s.dhtPeerLookupComplete_conserves env p connected
  | dhtServiceResolved svc providers => exact s.onDhtServiceResolved_conserves svc providers
  | tunnelDialFailed p reason => exact s.onTunnelDialFailed_conserves env p reason
  | tunnelPeerConnected p relayed =>
    cases relayed with
    | true => exact s.onRelayedConnection_conserves p
    | false => exact s.onDirectConnection_conserves p
  | holePunchAttemptFailed p attemptId reason => exact s.retryHolepunchAttempt_conserves p attemptId
  | holePunchAttemptTimeout p attemptId => exact s.retryHolepunchAttempt_conserves p attemptId
  | connectionLost p remaining =>
    simp only [transition]
    split
    · exact s.onFullyDisconnected_conserves env p
    · exact add_zero _
  | phaseChanged old new =>
    cases new with
    | ready =>
      refine conserves_of_same rfl rfl rfl fun c hc => ?_
      simp only [initiateLookups, List.mem_cons, List.mem_append, List.mem_map] at hc
      rcases hc with rfl | ⟨q, _, rfl⟩ | ⟨svc, _, rfl⟩ <;> rfl
    | joining => exact add_zero _
    | shuttingDown => exact add_zero _
  | dhtServiceFailed svc reason =>
    refine conserves_of_same rfl rfl rfl fun c hc => ?_
    split at hc
    · rw [List.mem_singleton.mp hc]
      rfl
    · cases hc
  | relayReservationAccepted relay => exact add_zero _
  | peerIdentified p addrs observed => exact add_zero _
  | holePunchAttemptStarted p attemptId => exact add_zero _
  | holePunchFailed p reason => exact add_zero _
  | listeningOn addr => exact add_zero _
  | bootstrapConnected p addr => exact add_zero _
  | shutdownRequested => exact add_zero _
  | kademliaBootstrapOk => exact add_zero _
  | kademliaBootstrapFailed reason => exact add_zero _
  | mdnsDiscovered peers => exact add_zero _
  | mdnsExpired peers => exact add_zero _
  | natStatusChanged status => exact add_zero _
  | discoveryTimeout => exact add_zero _
  | relayReservationFailed relay reason => exact add_zero _
  | noBootstrapPeers => exact add_zero _
  | externalAddrConfirmed addr => exact add_zero _
  | externalAddrExpired addr => exact add_zero _

/-- Along a run, intents are only spawned. -/
theorem run_conserves (s : TunnelState) (inputs : List (Env × Event)) :
    (machine.after s inputs).heldIntents + spawnedIntents (machine.outputs s inputs) =
      s.heldIntents := by
  have hstep (s : TunnelState) (i : Env × Event) : (machine.step s i).1.heldIntents +
      ((machine.step s i).2.map Command.spawned).sum = s.heldIntents :=
    s.transition_conserves i.1 i.2
  exact Mealy.Machine.conserved heldIntents Command.spawned hstep s inputs

/-- A configured machine holds exactly what was requested. -/
theorem heldIntents_configured (calls : List ConfigCall) :
    (configured calls).heldIntents = requestedIntents calls := by
  have hcall (s : TunnelState) (call : ConfigCall) :
      (call.apply s).heldIntents = s.heldIntents + call.requested := by
    cases call with
    | addPeerTunnel p svc bind =>
      simp only [ConfigCall.apply, addPeerTunnel, heldIntents, intentsByPeer_extend,
        ConfigCall.requested, Multiset.coe_singleton]
      abel
    | addServiceTunnel svc bind =>
      simp only [ConfigCall.apply, addServiceTunnel, heldIntents, intentsByService_extend,
        ConfigCall.requested, List.map_cons, List.map_nil, Multiset.coe_singleton]
      abel
    | setNatMapping mapping =>
      have hheld : (s.setNatMapping mapping).heldIntents = s.heldIntents := rfl
      rw [ConfigCall.apply, hheld, ConfigCall.requested, add_zero]
  have hcalls (s : TunnelState) : (calls.foldl ConfigCall.apply s).heldIntents =
      s.heldIntents + requestedIntents calls := by
    induction calls generalizing s with
    | nil => exact (add_zero _).symm
    | cons call calls ih =>
      have hcons : requestedIntents (call :: calls) =
          call.requested + requestedIntents calls := rfl
      rw [List.foldl_cons, ih, hcall, hcons, add_assoc]
  have hnew : new.heldIntents = 0 := by
    simp [heldIntents, new, intentsByPeer, intentsByService]
  rw [configured, hcalls, hnew, zero_add]

/-- **Conservation of tunnel intents.** After every run, the intents still held together
with those of all tunnels spawned so far are exactly the requested ones. -/
theorem intents_conserved (calls : List ConfigCall) (inputs : List (Env × Event)) :
    (machine.after (configured calls) inputs).heldIntents +
        spawnedIntents (machine.outputs (configured calls) inputs) =
      requestedIntents calls := by
  have hstep (s : TunnelState) (i : Env × Event) : (machine.step s i).1.heldIntents +
      ((machine.step s i).2.map Command.spawned).sum = s.heldIntents :=
    s.transition_conserves i.1 i.2
  have hrun := Mealy.Machine.conserved heldIntents Command.spawned hstep (configured calls) inputs
  rw [← heldIntents_configured]
  exact hrun

end TunnelState

end Punchgate
