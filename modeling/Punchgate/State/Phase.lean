import Punchgate.State.App

/-!
# The phase of the peer machine

Six events write the phase of a node, guarded by what is known about its bootstrap and its
addresses. `PhaseStep` says once what a step can do to the phase. The discipline of whole
runs follows from it, and so does the one case in which the order of two events decides
whether a node becomes ready.
-/

namespace Punchgate

/-- `PeerState` as a Mealy machine: every input is an event together with the environment it is
processed in. -/
def PeerState.machine : Mealy.Machine PeerState (Env × Event) Command where
  step s i := s.transition i.1 i.2

/-- A new peer machine with its initial bootstrap peers. -/
def PeerState.withBootstrapPeers (peers : Finset PeerId) : PeerState :=
  { PeerState.new with bootstrapPeers := peers }

/-- The commands the peer machine can ask for. -/
def Command.fromPeer : Command → Bool
  | .kademliaBootstrap | .kademliaAddAddress _ _ | .requestRelayReservation _ _ | .shutdown => true
  | _ => false

namespace PeerState

/-- What a step can do to the phase, and to the note that the bootstrap has succeeded, with the
bootstrap queries it asks for. -/
inductive PhaseStep (s : PeerState) : Event → PeerState → List Command → Prop
  /-- Nothing. -/
  | kept {e s' cs} (hphase : s'.phase = s.phase) (hkad : s'.kadBootstrapped = s.kadBootstrapped)
      (hquery : .kademliaBootstrap ∉ cs) : PhaseStep s e s' cs
  /-- A connected bootstrap peer is asked for more peers. -/
  | queried {peer addr s' cs} (hphase : s'.phase = s.phase)
      (hkad : s'.kadBootstrapped = s.kadBootstrapped)
      (hquery : .kademliaBootstrap ∈ cs → s.phase ≠ .shuttingDown) :
      PhaseStep s (.bootstrapConnected peer addr) s' cs
  /-- The bootstrap has succeeded. -/
  | bootstrapped : PhaseStep s .kademliaBootstrapOk
      (maybeBecomeReady { s with kadBootstrapped := true }) []
  /-- An external address was confirmed. -/
  | confirmed {addr} : PhaseStep s (.externalAddrConfirmed addr)
      (maybeBecomeReady { s with externalAddrs := insert addr s.externalAddrs }) []
  /-- The discovery timeout ends the wait for an external address. -/
  | timedOut (hphase : s.phase = .joining) (hkad : s.kadBootstrapped = true) :
      PhaseStep s .discoveryTimeout { s with phase := .ready } []
  /-- A node without bootstrap peers has nothing to wait for. -/
  | alone (hphase : s.phase = .joining) :
      PhaseStep s .noBootstrapPeers { s with phase := .ready } []
  /-- The last known peer was lost. -/
  | lost {peer s' cs} (hbefore : s.phase = .ready) (hafter : s'.phase = .joining)
      (hkad : s'.kadBootstrapped = false) (hknown : s'.knownPeers.isEmpty = true)
      (hpeers : s'.bootstrapPeers ≠ ∅) (hquery : .kademliaBootstrap ∈ cs) :
      PhaseStep s (.connectionLost peer 0) s' cs
  /-- The node shuts down. -/
  | shutDown : PhaseStep s .shutdownRequested { s with phase := .shuttingDown } [.shutdown]

variable {env : Env} {s : PeerState} {e : Event} {c : Command}

/-! ## The commands of a step -/

/-- Asking for a relay reservation. -/
theorem mem_maybeRequestRelay (h : c ∈ s.maybeRequestRelay env) :
    ∃ peer addr, c = .requestRelayReservation peer addr := by
  unfold maybeRequestRelay at h
  split at h
  · split at h
    · split at h
      · exact ⟨_, _, List.mem_singleton.mp h⟩
      · cases h
    · cases h
  · cases h

/-- Merging the listed addresses of a peer only adds addresses to the routing table. -/
theorem mem_foldl_mergeIdentified {peer : PeerId} {addrs : List Multiaddr}
    {acc : Finset Multiaddr × List Command}
    (h : c ∈ (addrs.foldl (mergeIdentified peer) acc).2) :
    c ∈ acc.2 ∨ ∃ addr, c = .kademliaAddAddress peer addr := by
  induction addrs generalizing acc with
  | nil => exact Or.inl h
  | cons addr addrs ih =>
    rcases ih h with hc | hc
    · unfold mergeIdentified at hc
      dsimp only at hc
      split at hc
      · rcases List.mem_append.mp hc with hc | hc
        · exact Or.inl hc
        · exact Or.inr ⟨addr, List.mem_singleton.mp hc⟩
      · exact Or.inl hc
    · exact Or.inr hc

/-- The commands of an identified peer. -/
theorem mem_onPeerIdentified {peer : PeerId} {addrs : List Multiaddr}
    (h : c ∈ (s.onPeerIdentified env peer addrs).2) :
    (∃ addr, c = .kademliaAddAddress peer addr) ∨
      ∃ relay addr, c = .requestRelayReservation relay addr := by
  rcases List.mem_append.mp h with h | h
  · rcases mem_foldl_mergeIdentified h with h | h
    · cases h
    · exact Or.inl h
  · split at h
    · exact Or.inr (mem_maybeRequestRelay h)
    · cases h

/-- The commands of a new NAT status. -/
theorem mem_onNatStatusChanged {status : NatStatus}
    (h : c ∈ (s.onNatStatusChanged env status).2) :
    ∃ relay addr, c = .requestRelayReservation relay addr := by
  unfold onNatStatusChanged at h
  split at h
  · exact mem_maybeRequestRelay h
  · cases h
  · cases h

/-- Every command of a step is one of the peer machine's own kinds. -/
theorem fromPeer_of_mem_transition (h : c ∈ (s.transition env e).2) : c.fromPeer = true := by
  cases e with
  | bootstrapConnected peer addr =>
    simp only [transition, List.mem_cons] at h
    rcases h with rfl | h
    · rfl
    · split at h
      · cases h
      · rw [List.mem_singleton.mp h]
        rfl
  | peerIdentified peer addrs observed =>
    rcases mem_onPeerIdentified h with ⟨_, rfl⟩ | ⟨_, _, rfl⟩ <;> rfl
  | natStatusChanged status =>
    obtain ⟨_, _, rfl⟩ := mem_onNatStatusChanged h
    rfl
  | relayReservationFailed =>
    obtain ⟨_, _, rfl⟩ := mem_maybeRequestRelay h
    rfl
  | mdnsDiscovered peers =>
    obtain ⟨_, _, rfl⟩ := List.mem_map.mp h
    rfl
  | shutdownRequested =>
    rw [List.mem_singleton.mp h]
    rfl
  | connectionLost peer remaining =>
    simp only [transition, onFullyDisconnected] at h
    split at h
    · split at h
      · rw [List.mem_singleton.mp h]
        rfl
      · cases h
    · cases h
  | discoveryTimeout =>
    simp only [transition] at h
    split at h <;> cases h
  | _ => cases h

/-! ## The phase after a step -/

/-- Only the known addresses differ. -/
def SameButKnown (s t : PeerState) : Prop := ∃ known, t = { s with knownPeers := known }

/-- What changes nothing but the known addresses can be repeated. -/
theorem foldl_sameButKnown {α : Type} {f : PeerState → α → PeerState}
    (hf : ∀ s x, SameButKnown s (f s x)) (xs : List α) (s : PeerState) :
    SameButKnown s (xs.foldl f s) := by
  induction xs generalizing s with
  | nil => exact ⟨_, rfl⟩
  | cons x xs ih =>
    obtain ⟨known, heq⟩ := hf s x
    obtain ⟨known', heq'⟩ := ih (f s x)
    exact ⟨known', by rw [List.foldl_cons, heq', heq]⟩

/-- Recorded addresses change nothing else. -/
theorem foldl_addKnownAddr_same (records : List (PeerId × Multiaddr)) (s : PeerState) :
    SameButKnown s (records.foldl (fun s r => s.addKnownAddr r.1 r.2) s) :=
  foldl_sameButKnown (fun _ _ => ⟨_, rfl⟩) records s

/-- Expired records change nothing else. -/
theorem foldl_expireKnownAddr_same (records : List (PeerId × Multiaddr)) (s : PeerState) :
    SameButKnown s (records.foldl expireKnownAddr s) := by
  refine foldl_sameButKnown (fun s record => ?_) records s
  unfold expireKnownAddr
  split
  · exact ⟨_, rfl⟩
  · split <;> exact ⟨_, rfl⟩

/-- **Step.** Every transition is one of the steps of the phase. -/
theorem transition_phase (env : Env) (s : PeerState) (e : Event) :
    PhaseStep s e (s.transition env e).1 (s.transition env e).2 := by
  have hnever {cs : List Command} (h : ∀ c ∈ cs, c ≠ .kademliaBootstrap) :
      .kademliaBootstrap ∉ cs := fun hc => h _ hc rfl
  cases e with
  | bootstrapConnected peer addr =>
    refine .queried rfl rfl fun hquery hphase => ?_
    simp only [transition, if_pos hphase, List.mem_singleton] at hquery
    cases hquery
  | kademliaBootstrapOk => exact .bootstrapped
  | externalAddrConfirmed addr => exact .confirmed
  | discoveryTimeout =>
    simp only [transition]
    split
    · rename_i h
      exact .timedOut h.1 h.2.1
    · exact .kept rfl rfl (by simp)
  | noBootstrapPeers =>
    simp only [transition]
    split
    · rename_i h
      exact .alone h
    · exact .kept rfl rfl (by simp)
  | shutdownRequested => exact .shutDown
  | connectionLost peer remaining =>
    simp only [transition, onFullyDisconnected]
    split
    · rename_i hzero
      subst hzero
      split
      · rename_i h
        exact .lost h.1 rfl rfl h.2.1 h.2.2 (by simp)
      · exact .kept rfl rfl (by simp)
    · exact .kept rfl rfl (by simp)
  | natStatusChanged status =>
    refine .kept ?_ ?_ (hnever fun c hc => ?_)
    · simp only [transition, onNatStatusChanged]
      split <;> rfl
    · simp only [transition, onNatStatusChanged]
      split <;> rfl
    · obtain ⟨_, _, rfl⟩ := mem_onNatStatusChanged hc
      exact Command.noConfusion
  | mdnsDiscovered peers =>
    obtain ⟨known, heq⟩ := foldl_addKnownAddr_same peers s
    have hphase := congrArg PeerState.phase heq
    have hkad := congrArg PeerState.kadBootstrapped heq
    refine .kept hphase hkad (hnever fun c hc => ?_)
    obtain ⟨_, _, rfl⟩ := List.mem_map.mp hc
    exact Command.noConfusion
  | mdnsExpired peers =>
    obtain ⟨known, heq⟩ := foldl_expireKnownAddr_same peers s
    have hphase := congrArg PeerState.phase heq
    have hkad := congrArg PeerState.kadBootstrapped heq
    exact .kept hphase hkad (by simp [transition])
  | peerIdentified peer addrs observed =>
    refine .kept rfl rfl (hnever fun c hc => ?_)
    rcases mem_onPeerIdentified hc with ⟨_, rfl⟩ | ⟨_, _, rfl⟩ <;> exact Command.noConfusion
  | relayReservationFailed peer reason =>
    refine .kept rfl rfl (hnever fun c hc => ?_)
    obtain ⟨_, _, rfl⟩ := mem_maybeRequestRelay hc
    exact Command.noConfusion
  | _ => exact .kept rfl rfl (by simp [transition])

/-- A node becomes ready from joining only. -/
theorem maybeBecomeReady_cases (s : PeerState) :
    (s.phase = .joining ∧ s.kadBootstrapped = true ∧ s.externalAddrs ≠ ∅ ∧
      s.maybeBecomeReady = { s with phase := .ready }) ∨ s.maybeBecomeReady = s := by
  unfold maybeBecomeReady
  split
  · rename_i h
    exact Or.inl ⟨h.1, h.2.1, h.2.2, rfl⟩
  · exact Or.inr rfl

section Step

variable {s' : PeerState} {cs : List Command}

/-- A node that shuts down keeps doing so and asks for no more peers. -/
theorem PhaseStep.shuttingDown (h : PhaseStep s e s' cs) (hs : s.phase = .shuttingDown) :
    s'.phase = .shuttingDown ∧ .kademliaBootstrap ∉ cs := by
  have hready (t : PeerState) (ht : t.phase = .shuttingDown) :
      t.maybeBecomeReady.phase = .shuttingDown := by
    rcases t.maybeBecomeReady_cases with ⟨hjoining, _⟩ | heq
    · rw [ht] at hjoining
      cases hjoining
    · rw [heq]
      exact ht
  cases h with
  | kept hphase _ hquery => exact ⟨hphase.trans hs, hquery⟩
  | queried hphase _ hquery => exact ⟨hphase.trans hs, fun h => hquery h hs⟩
  | bootstrapped => exact ⟨hready _ hs, by simp⟩
  | confirmed => exact ⟨hready _ hs, by simp⟩
  | timedOut hphase =>
    rw [hs] at hphase
    cases hphase
  | alone hphase =>
    rw [hs] at hphase
    cases hphase
  | lost hbefore =>
    rw [hs] at hbefore
    cases hbefore
  | shutDown => exact ⟨rfl, by simp⟩

/-- A node with bootstrap peers is ready only once the bootstrap has succeeded. -/
theorem PhaseStep.kadBootstrapped_of_ready (h : PhaseStep s e s' cs) (he : e ≠ .noBootstrapPeers)
    (hs : s.phase = .ready → s.kadBootstrapped = true) (hready : s'.phase = .ready) :
    s'.kadBootstrapped = true := by
  cases h with
  | kept hphase hkad =>
    rw [hkad]
    exact hs (hphase.symm.trans hready)
  | queried hphase hkad =>
    rw [hkad]
    exact hs (hphase.symm.trans hready)
  | bootstrapped =>
    rcases maybeBecomeReady_cases { s with kadBootstrapped := true } with ⟨_, _, _, heq⟩ | heq
    · rw [heq]
    · rw [heq]
  | @confirmed addr =>
    rcases maybeBecomeReady_cases { s with externalAddrs := insert addr s.externalAddrs } with
      ⟨_, hkad, _, heq⟩ | heq
    · rw [heq]
      exact hkad
    · rw [heq] at hready ⊢
      exact hs hready
  | timedOut _ hkad => exact hkad
  | alone => exact absurd rfl he
  | lost _ hafter =>
    rw [hready] at hafter
    cases hafter
  | shutDown => cases hready

/-- A node joins again only after the loss of its last known peer. -/
theorem PhaseStep.leaves_ready (h : PhaseStep s e s' cs) (hs : s.phase = .ready)
    (hs' : s'.phase = .joining) :
    ∃ peer, e = .connectionLost peer 0 ∧ s'.knownPeers.isEmpty = true ∧ s'.bootstrapPeers ≠ ∅ ∧
      s'.kadBootstrapped = false ∧ .kademliaBootstrap ∈ cs := by
  have hkept (t : PeerState) (ht : t.phase = .ready) : t.maybeBecomeReady.phase ≠ .joining := by
    rcases t.maybeBecomeReady_cases with ⟨hjoining, _⟩ | heq
    · rw [ht] at hjoining
      cases hjoining
    · rw [heq, ht]
      exact Phase.noConfusion
  cases h with
  | kept hphase =>
    rw [hphase, hs] at hs'
    cases hs'
  | queried hphase =>
    rw [hphase, hs] at hs'
    cases hs'
  | bootstrapped => exact absurd hs' (hkept _ hs)
  | confirmed => exact absurd hs' (hkept _ hs)
  | timedOut => cases hs'
  | alone => cases hs'
  | lost _ _ hkad hknown hpeers hquery => exact ⟨_, rfl, hknown, hpeers, hkad, hquery⟩
  | shutDown => cases hs'

end Step

/-- **Phase discipline.** In every run, a requested shutdown is final and ends the queries for
peers; a node that has bootstrap peers is ready only after a successful bootstrap; and it joins
again only when its last known peer is lost, starting the bootstrap anew. -/
theorem phase_discipline (peers : Finset PeerId) (is : List (Env × Event)) :
    let s := machine.after (withBootstrapPeers peers) is
    (∀ env js, let t := (s.transition env .shutdownRequested).1
      (machine.after t js).phase = .shuttingDown ∧ .kademliaBootstrap ∉ machine.outputs t js) ∧
    ((∀ i ∈ is, i.2 ≠ .noBootstrapPeers) → s.phase = .ready → s.kadBootstrapped = true) ∧
    ∀ env e, s.phase = .ready → (s.transition env e).1.phase = .joining →
      ∃ peer, e = .connectionLost peer 0 ∧
        (s.transition env e).1.knownPeers.isEmpty = true ∧
        (s.transition env e).1.bootstrapPeers ≠ ∅ ∧
        (s.transition env e).1.kadBootstrapped = false ∧
        .kademliaBootstrap ∈ (s.transition env e).2 := by
  intro s
  refine ⟨fun env js => ?_, fun his => ?_, fun env e hs hs' => ?_⟩
  · intro t
    have hfree : machine.Guarded (fun _ _ => True) t js := .of_forall_mem fun _ _ _ => trivial
    have hstep (u : PeerState) (i : Env × Event) (hu : u.phase = .shuttingDown) :=
      (u.transition_phase i.1 i.2).shuttingDown hu
    constructor
    · exact Mealy.Machine.invariant (m := machine) js (P := fun u => u.phase = .shuttingDown) rfl
        fun u i hu => (hstep u i hu).1
    · intro hquery
      refine hfree.forall_outputs (P := fun u => u.phase = .shuttingDown)
        (Q := fun c => c ≠ .kademliaBootstrap) rfl (fun u i hu _ => (hstep u i hu).1)
        (fun u i hu _ c hc heq => ?_) _ hquery rfl
      rw [heq] at hc
      exact (hstep u i hu).2 hc
  · have hguarded : machine.Guarded (fun _ i => i.2 ≠ .noBootstrapPeers)
        (withBootstrapPeers peers) is := .of_forall_mem fun i hi _ => his i hi
    exact hguarded.invariant (P := fun u => u.phase = .ready → u.kadBootstrapped = true)
      (fun h => by cases h) fun u i hu hi =>
        (u.transition_phase i.1 i.2).kadBootstrapped_of_ready hi hu
  · exact (s.transition_phase env e).leaves_ready hs hs'

end PeerState

/-! ## The order of the events that make a node ready -/

/-- The events that make a joining node ready, or help to. -/
inductive ReadinessEvent
  | kademliaBootstrapOk
  | externalAddrConfirmed (addr : Multiaddr)
  | discoveryTimeout
  deriving DecidableEq

/-- The event itself. -/
def ReadinessEvent.event : ReadinessEvent → Event
  | kademliaBootstrapOk => .kademliaBootstrapOk
  | externalAddrConfirmed addr => .externalAddrConfirmed addr
  | discoveryTimeout => .discoveryTimeout

namespace PeerState

/-- The discovery timeout and the end of the bootstrap meet in a joining node that knows a peer
but no external address: the timeout is lost if it comes first. -/
def LosesTimeout (s : PeerState) : ReadinessEvent → ReadinessEvent → Prop
  | .discoveryTimeout, .kademliaBootstrapOk | .kademliaBootstrapOk, .discoveryTimeout =>
    s.phase = .joining ∧ s.kadBootstrapped = false ∧ s.externalAddrs = ∅ ∧
      s.knownPeers.isEmpty = false
  | _, _ => False

/-- The phase after two readiness events. -/
def phaseAfter (s : PeerState) (first second : Env × ReadinessEvent) : Phase :=
  (machine.after s [(first.1, first.2.event), (second.1, second.2.event)]).phase

/-- A readiness event makes a joining node ready at once. -/
def BecomesReady (s : PeerState) : ReadinessEvent → Prop
  | .kademliaBootstrapOk => s.externalAddrs ≠ ∅
  | .externalAddrConfirmed _ => s.kadBootstrapped = true
  | .discoveryTimeout => s.kadBootstrapped = true ∧ s.knownPeers.isEmpty = false

instance (s : PeerState) : DecidablePred s.BecomesReady
  | .kademliaBootstrapOk => inferInstanceAs (Decidable (¬_))
  | .externalAddrConfirmed _ => inferInstanceAs (Decidable (_ = true))
  | .discoveryTimeout => inferInstanceAs (Decidable (_ ∧ _))

/-- The phase after one readiness event. -/
theorem phase_transition_readiness (env : Env) (s : PeerState) (e : ReadinessEvent) :
    (s.transition env e.event).1.phase =
      if s.phase = .joining ∧ s.BecomesReady e then .ready else s.phase := by
  by_cases h : s.phase = .joining ∧ s.BecomesReady e
  · rw [if_pos h]
    cases e with
    | kademliaBootstrapOk => exact congrArg PeerState.phase (if_pos ⟨h.1, rfl, h.2⟩)
    | externalAddrConfirmed addr =>
      exact congrArg PeerState.phase (if_pos ⟨h.1, h.2, Finset.insert_ne_empty addr _⟩)
    | discoveryTimeout => exact congrArg (PeerState.phase ∘ Prod.fst) (if_pos h)
  · rw [if_neg h]
    cases e with
    | kademliaBootstrapOk =>
      rcases maybeBecomeReady_cases { s with kadBootstrapped := true } with
        ⟨hjoining, _, hexternal, _⟩ | heq
      · exact absurd ⟨hjoining, hexternal⟩ h
      · have hphase := congrArg PeerState.phase heq
        exact hphase
    | externalAddrConfirmed addr =>
      rcases maybeBecomeReady_cases { s with externalAddrs := insert addr s.externalAddrs } with
        ⟨hjoining, hkad, _, _⟩ | heq
      · exact absurd ⟨hjoining, hkad⟩ h
      · have hphase := congrArg PeerState.phase heq
        exact hphase
    | discoveryTimeout => exact congrArg (PeerState.phase ∘ Prod.fst) (if_neg h)

/-- What a readiness event leaves for the next one. -/
theorem transition_readiness_frame (env : Env) (s : PeerState) (e : ReadinessEvent) :
    ((s.transition env e.event).1.kadBootstrapped = true ↔
      e = .kademliaBootstrapOk ∨ s.kadBootstrapped = true) ∧
    ((s.transition env e.event).1.externalAddrs ≠ ∅ ↔
      (∃ addr, e = .externalAddrConfirmed addr) ∨ s.externalAddrs ≠ ∅) ∧
    (s.transition env e.event).1.knownPeers = s.knownPeers := by
  have hready (t : PeerState) : t.maybeBecomeReady.kadBootstrapped = t.kadBootstrapped ∧
      t.maybeBecomeReady.externalAddrs = t.externalAddrs ∧
      t.maybeBecomeReady.knownPeers = t.knownPeers := by
    unfold maybeBecomeReady
    split <;> exact ⟨rfl, rfl, rfl⟩
  cases e with
  | kademliaBootstrapOk =>
    obtain ⟨hkad, hexternal, hknown⟩ := hready { s with kadBootstrapped := true }
    simp [ReadinessEvent.event, transition, hkad, hexternal, hknown]
  | externalAddrConfirmed addr =>
    obtain ⟨hkad, hexternal, hknown⟩ :=
      hready { s with externalAddrs := insert addr s.externalAddrs }
    simp [ReadinessEvent.event, transition, hkad, hexternal, hknown]
  | discoveryTimeout =>
    simp only [ReadinessEvent.event, transition]
    split <;> simp

/-- The phase after two readiness events. -/
theorem phaseAfter_eq (s : PeerState) (env env' : Env) (e f : ReadinessEvent) :
    s.phaseAfter (env, e) (env', f) =
      if s.phase = .joining ∧
          (s.BecomesReady e ∨ (s.transition env e.event).1.BecomesReady f) then .ready
      else s.phase := by
  change ((s.transition env e.event).1.transition env' f.event).1.phase = _
  rw [phase_transition_readiness, phase_transition_readiness]
  by_cases hs : s.phase = .joining
  · by_cases he : s.BecomesReady e
    · simp [hs, he]
    · simp [hs, he]
  · simp [hs]

/-- **Order of arrival.** Two readiness events that reach a node in either order lead to the same
phase, except for a discovery timeout and the end of the bootstrap at a joining node that knows a
peer but no external address. -/
theorem ready_in_either_order_iff (peers : Finset PeerId) (is : List (Env × Event))
    (e f : Env × ReadinessEvent) :
    let s := machine.after (withBootstrapPeers peers) is
    s.phaseAfter e f = s.phaseAfter f e ↔ ¬s.LosesTimeout e.2 f.2 := by
  intro s
  obtain ⟨env, e⟩ := e
  obtain ⟨env', f⟩ := f
  obtain ⟨hkad, hexternal, hknown⟩ := s.transition_readiness_frame env e
  obtain ⟨hkad', hexternal', hknown'⟩ := s.transition_readiness_frame env' f
  rw [phaseAfter_eq, phaseAfter_eq]
  by_cases hs : s.phase = .joining
  · cases e <;> cases f <;>
      simp only [BecomesReady, LosesTimeout, hkad, hexternal, hknown, hkad', hexternal', hknown', hs]
      <;> grind
  · rw [if_neg fun h => hs h.1, if_neg fun h => hs h.1]
    refine iff_of_true rfl fun hlost => ?_
    unfold LosesTimeout at hlost
    split at hlost
    · exact hs hlost.1
    · exact hs hlost.1
    · exact hlost

/-- A bootstrap peer is connected, and then the timeout comes just before or just after the end
of the bootstrap. -/
theorem timeout_lost_before_bootstrap :
    let s := machine.after (withBootstrapPeers {⟨1⟩})
      [(.sorted, .bootstrapConnected ⟨1⟩ ⟨[.ip4 ⟨203, 0, 113, 1⟩, .udp 4001, .quicV1]⟩)]
    s.phaseAfter (.sorted, .discoveryTimeout) (.sorted, .kademliaBootstrapOk) = .joining ∧
      s.phaseAfter (.sorted, .kademliaBootstrapOk) (.sorted, .discoveryTimeout) = .ready := by
  decide

end PeerState

end Punchgate
