import Punchgate.State.Phase
import Punchgate.State.Refinement

/-!
# The composed machine at one peer

The peer machine never acts on a peer, and a change of phase is only an occasion for
lookups. Hence the composed machine treats the slice of a peer as the tunnel machine
does.
-/

namespace Punchgate

/-- Events that can hand the intents of another peer or of a service to a peer. -/
def Event.handsOver : Event → Bool
  | .tunnelDialFailed _ _ | .dhtServiceResolved _ _ => true
  | _ => false

/-- An event that has nothing to do with a peer leaves its slice alone. -/
theorem PeerStep.eq_of_quiet {s : TunnelState} {p : PeerId} {e : Event} {v : PeerView}
    {cs : List Command} (h : PeerStep s p e v cs) (hsubject : e.subject ≠ some p)
    (hhands : e.handsOver = false) : v = s.view p ∧ cs = [] := by
  cases h with
  | idle => exact ⟨rfl, rfl⟩
  | handedOver => cases hhands
  | resolved => cases hhands
  | resolvedConnected => cases hhands
  | failureIgnored => exact ⟨rfl, rfl⟩
  | retriesExhausted he => exact absurd (Event.subject_of_failedAttempt he) hsubject
  | retryScheduled he => exact absurd (Event.subject_of_failedAttempt he) hsubject
  | _ => exact absurd rfl hsubject

/-! ## The composed machine -/

/-- The peer machine never acts on a peer. -/
theorem PeerState.target_of_mem_transition {env : Env} {s : PeerState} {e : Event} {c : Command}
    (h : c ∈ (s.transition env e).2) : c.target = none := by
  have hown := fromPeer_of_mem_transition h
  cases c <;> first | rfl | cases hown

/-- A node shuts down only on request. -/
theorem PeerState.phase_transition {env : Env} {s : PeerState} {e : Event}
    (h : (s.transition env e).1.phase = .shuttingDown) :
    s.phase = .shuttingDown ∨ e = .shutdownRequested := by
  have hready (t : PeerState) (ht : t.maybeBecomeReady.phase = .shuttingDown) :
      t.phase = .shuttingDown := by
    rcases t.maybeBecomeReady_cases with ⟨_, _, _, heq⟩ | heq
    · rw [heq] at ht
      cases ht
    · rwa [heq] at ht
  have hstep := s.transition_phase env e
  generalize (s.transition env e).1 = s', (s.transition env e).2 = cs at hstep h
  cases hstep with
  | kept hphase => exact Or.inl (hphase.symm.trans h)
  | queried hphase => exact Or.inl (hphase.symm.trans h)
  | bootstrapped => exact Or.inl (hready { s with kadBootstrapped := true } h)
  | @confirmed addr =>
    exact Or.inl (hready { s with externalAddrs := insert addr s.externalAddrs } h)
  | timedOut => cases h
  | alone => cases h
  | lost _ hafter =>
    rw [h] at hafter
    cases hafter
  | shutDown => exact Or.inr rfl

namespace AppState

variable {env : Env} {a : AppState} {e : Event} {p : PeerId}

/-- A change of phase is only an occasion for lookups. -/
theorem transition_bridge (env : Env) (s : TunnelState) (old new : Phase) :
    (s.transition env (.phaseChanged old new)).1 = s ∧
      ∀ c ∈ (s.transition env (.phaseChanged old new)).2, c.target = none := by
  cases new with
  | ready =>
    refine ⟨rfl, fun c hc => ?_⟩
    simp only [TunnelState.transition, TunnelState.initiateLookups, List.mem_cons, List.mem_append,
      List.mem_map] at hc
    rcases hc with rfl | ⟨_, _, rfl⟩ | ⟨_, _, rfl⟩ <;> rfl
  | joining => exact ⟨rfl, fun c hc => by cases hc⟩
  | shuttingDown => exact ⟨rfl, fun c hc => by cases hc⟩

/-- The commands that act on a peer are kept from both halves. -/
theorem commandsFor_append (p : PeerId) (cs ds : List Command) :
    commandsFor p (cs ++ ds) = commandsFor p cs ++ commandsFor p ds := List.filter_append ..

/-- The composed machine moves the tunnel machine as the event alone does. -/
theorem transition_tunnel (env : Env) (a : AppState) (e : Event) :
    (a.transition env e).1.tunnel = (a.tunnel.transition env e).1 := by
  unfold transition bridge
  dsimp only
  split
  · rfl
  · change ((a.tunnel.transition env (.phaseChanged _ _)).1.transition env e).1 = _
    rw [(transition_bridge env a.tunnel _ _).1]

/-- Only the tunnel machine acts on peers. -/
theorem commandsFor_transition (env : Env) (a : AppState) (e : Event) (p : PeerId) :
    commandsFor p (a.transition env e).2 = commandsFor p (a.tunnel.transition env e).2 := by
  have hnone {cs : List Command} (h : ∀ c ∈ cs, c.target = none) : commandsFor p cs = [] := by
    refine commandsFor_eq_nil fun c hc heq => ?_
    rw [h c hc] at heq
    cases heq
  have hpeer : commandsFor p (a.peer.transition env e).2 = [] :=
    hnone fun c hc => PeerState.target_of_mem_transition hc
  unfold transition bridge
  dsimp only
  split
  · simp [commandsFor_append, hpeer, Mealy.Machine.outputs, TunnelState.machine]
  · rename_i hphase
    have hbridge : commandsFor p (a.tunnel.transition env
        (.phaseChanged a.peer.phase (a.peer.transition env e).1.phase)).2 = [] :=
      hnone (transition_bridge env a.tunnel _ _).2
    have hstate := (transition_bridge env a.tunnel a.peer.phase
      (a.peer.transition env e).1.phase).1
    simp [commandsFor_append, hpeer, hbridge, hstate, Mealy.Machine.outputs, TunnelState.machine]

/-- The composed machine refines the behaviour of every peer's slice. -/
theorem transition_refines (env : Env) (a : AppState) (p : PeerId) (e : Event) :
    PeerStep a.tunnel p e ((a.transition env e).1.tunnel.view p)
      (commandsFor p (a.transition env e).2) := by
  rw [transition_tunnel, commandsFor_transition]
  exact a.tunnel.transition_refines env p e

/-- The composed machine shuts down only on request. -/
theorem phase_transition (env : Env) (a : AppState) (e : Event)
    (h : (a.transition env e).1.phase = .shuttingDown) :
    a.phase = .shuttingDown ∨ e = .shutdownRequested := PeerState.phase_transition h

end AppState

end Punchgate
