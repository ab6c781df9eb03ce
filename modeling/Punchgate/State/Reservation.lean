import Punchgate.State.Phase

/-!
# Relay reservations

The peer machine notes with one flag that it holds a relay reservation. Several relays can have
granted one, and the flag does not tell them apart: the failure of any relay clears it, and so
does the loss of any bootstrap peer. It never stands for a reservation that is lost, but it can be
clear while one is held.
-/

namespace Punchgate

namespace PeerState

/-- A relay grants a reservation. -/
def Accepts (_ : PeerState) (i : Env × Event) : Prop := ∃ r, i.2 = .relayReservationAccepted r

/-- The node takes its reservation for lost: one has failed, a bootstrap peer is gone, or there is
no need for one. -/
def Forgets (s : PeerState) (i : Env × Event) : Prop :=
  match i.2 with
  | .relayReservationFailed _ _ => True
  | .connectionLost peer remaining => remaining = 0 ∧ peer ∈ s.bootstrapPeers
  | .natStatusChanged status => status = .isPublic
  | _ => False

/-- Only bootstrap peers are asked for reservations, so only these grant them. -/
def AcceptsFromBootstrap (s : PeerState) (i : Env × Event) : Prop :=
  ∀ r, i.2 = .relayReservationAccepted r → r ∈ s.bootstrapPeers

/-- A given relay grants a reservation. -/
def AcceptedBy (r : PeerId) (_ : PeerState) (i : Env × Event) : Prop :=
  i.2 = .relayReservationAccepted r

/-- The reservation at a given relay is lost, or there is no need for one. -/
def ReleasedBy (r : PeerId) (_ : PeerState) (i : Env × Event) : Prop :=
  (∃ reason, i.2 = .relayReservationFailed r reason) ∨ i.2 = .connectionLost r 0 ∨
    i.2 = .natStatusChanged .isPublic

/-- After a run, a reservation is held at a relay. -/
def ReservedAt (r : PeerId) (s : PeerState) (is : List (Env × Event)) : Prop :=
  machine.Since (AcceptedBy r) (ReleasedBy r) s is

/-! ## One step -/

variable {env : Env} {s : PeerState} {e : Event}

/-- Becoming ready changes neither the reservation nor the bootstrap peers. -/
theorem maybeBecomeReady_frame (s : PeerState) :
    s.maybeBecomeReady.relayReserved = s.relayReserved ∧
      s.maybeBecomeReady.bootstrapPeers = s.bootstrapPeers := by
  unfold maybeBecomeReady
  split <;> exact ⟨rfl, rfl⟩

/-- Bootstrap peers stay bootstrap peers. -/
theorem bootstrapPeers_subset_transition (env : Env) (s : PeerState) (e : Event) :
    s.bootstrapPeers ⊆ (s.transition env e).1.bootstrapPeers := by
  cases e with
  | bootstrapConnected peer addr => exact Finset.subset_insert _ _
  | kademliaBootstrapOk =>
    exact (maybeBecomeReady_frame { s with kadBootstrapped := true }).2.symm.subset
  | externalAddrConfirmed addr =>
    exact (maybeBecomeReady_frame
      { s with externalAddrs := insert addr s.externalAddrs }).2.symm.subset
  | mdnsDiscovered peers =>
    obtain ⟨_, heq⟩ := foldl_addKnownAddr_same peers s
    have hpeers := congrArg bootstrapPeers heq
    exact hpeers.symm.subset
  | mdnsExpired peers =>
    obtain ⟨_, heq⟩ := foldl_expireKnownAddr_same peers s
    have hpeers := congrArg bootstrapPeers heq
    exact hpeers.symm.subset
  | natStatusChanged status =>
    simp only [transition, onNatStatusChanged]
    split <;> exact Finset.Subset.refl _
  | connectionLost peer remaining =>
    simp only [transition, onFullyDisconnected]
    split
    · split <;> exact Finset.Subset.refl _
    · exact Finset.Subset.refl _
  | discoveryTimeout =>
    simp only [transition]
    split <;> exact Finset.Subset.refl _
  | noBootstrapPeers =>
    simp only [transition]
    split <;> exact Finset.Subset.refl _
  | _ => exact Finset.Subset.refl _

/-- **Step.** The flag is set by a granted reservation, and kept unless the node takes its
reservation for lost. -/
theorem relayReserved_transition (env : Env) (s : PeerState) (e : Event) :
    (s.transition env e).1.relayReserved = true ↔
      s.Accepts (env, e) ∨ s.relayReserved = true ∧ ¬s.Forgets (env, e) := by
  have hkept {t : PeerState} (ht : t.relayReserved = s.relayReserved)
      (haccepts : ¬s.Accepts (env, e)) (hforgets : ¬s.Forgets (env, e)) :
      t.relayReserved = true ↔ s.Accepts (env, e) ∨ s.relayReserved = true ∧ ¬s.Forgets (env, e) := by
    simp [ht, haccepts, hforgets]
  cases e with
  | relayReservationAccepted r => exact iff_of_true rfl (Or.inl ⟨r, rfl⟩)
  | relayReservationFailed r reason =>
    simp [transition, Accepts, Forgets]
  | natStatusChanged status =>
    have haccepts : ¬s.Accepts (env, .natStatusChanged status) := by simp [Accepts]
    cases status with
    | isPublic =>
      cases hreserved : s.relayReserved <;>
        simp [transition, onNatStatusChanged, hreserved, Forgets, haccepts]
    | isPrivate =>
      refine hkept ?_ haccepts (by simp [Forgets])
      cases hreserved : s.relayReserved <;> simp [transition, onNatStatusChanged, hreserved]
    | unknown => exact hkept rfl haccepts (by simp [Forgets])
  | connectionLost peer remaining =>
    have haccepts : ¬s.Accepts (env, .connectionLost peer remaining) := by simp [Accepts]
    simp only [transition, onFullyDisconnected]
    split
    · rename_i hzero
      have hflag (t : PeerState × List Command) (ht : t.1.relayReserved =
          if peer ∈ s.bootstrapPeers then false else s.relayReserved) :
          t.1.relayReserved = true ↔ s.Accepts (env, .connectionLost peer remaining) ∨
            s.relayReserved = true ∧ ¬s.Forgets (env, .connectionLost peer remaining) := by
        rw [ht]
        subst hzero
        by_cases hpeer : peer ∈ s.bootstrapPeers <;> simp [haccepts, Forgets, hpeer]
      split <;> exact hflag _ rfl
    · rename_i hremaining
      exact hkept rfl haccepts fun h => hremaining h.1
  | kademliaBootstrapOk =>
    exact hkept (maybeBecomeReady_frame { s with kadBootstrapped := true }).1
      (by simp [Accepts]) id
  | externalAddrConfirmed addr =>
    exact hkept (maybeBecomeReady_frame { s with externalAddrs := insert addr s.externalAddrs }).1
      (by simp [Accepts]) id
  | mdnsDiscovered peers =>
    obtain ⟨_, heq⟩ := foldl_addKnownAddr_same peers s
    have hreserved := congrArg relayReserved heq
    exact hkept hreserved (by simp [Accepts]) id
  | mdnsExpired peers =>
    obtain ⟨_, heq⟩ := foldl_expireKnownAddr_same peers s
    have hreserved := congrArg relayReserved heq
    exact hkept hreserved (by simp [Accepts]) id
  | discoveryTimeout =>
    refine hkept ?_ (by simp [Accepts]) id
    simp only [transition]
    split <;> rfl
  | noBootstrapPeers =>
    refine hkept ?_ (by simp [Accepts]) id
    simp only [transition]
    split <;> rfl
  | _ => exact hkept rfl (by simp [Accepts]) id

/-! ## Runs -/

/-- A reservation that is granted by a bootstrap peer and not taken for lost is still held. -/
theorem exists_reservedAt {is : List (Env × Event)}
    (hfrom : machine.Guarded AcceptsFromBootstrap s is)
    (h : machine.Since Accepts Forgets s is) : ∃ r, ReservedAt r s is := by
  obtain ⟨js, ⟨env, e⟩, ks, rfl, ⟨r, rfl⟩, hkept⟩ := h
  have hr := (Mealy.Machine.guarded_append.mp hfrom).2.1 r rfl
  refine ⟨r, js, _, ks, rfl, rfl, ?_⟩
  refine hkept.mono_of_invariant (J := fun t => r ∈ t.bootstrapPeers)
    (bootstrapPeers_subset_transition _ _ _ hr)
    (fun t i ht => bootstrapPeers_subset_transition i.1 t i.2 ht) fun t i ht hforgets hreleased => ?_
  obtain ⟨env', e'⟩ := i
  rcases hreleased with ⟨reason, rfl⟩ | rfl | rfl
  · exact hforgets trivial
  · exact hforgets ⟨rfl, ht⟩
  · exact hforgets rfl

/-- **The reservation flag.** In every run in which only bootstrap peers grant reservations, the
flag is set exactly if one was granted since the last failure of any reservation, the last loss of
any bootstrap peer and the last notice of a public address; some relay then still holds one. -/
theorem relayReserved_iff (peers : Finset PeerId) (is : List (Env × Event))
    (hfrom : machine.Guarded AcceptsFromBootstrap (withBootstrapPeers peers) is) :
    ((machine.after (withBootstrapPeers peers) is).relayReserved = true ↔
      machine.Since Accepts Forgets (withBootstrapPeers peers) is) ∧
    ((machine.after (withBootstrapPeers peers) is).relayReserved = true →
      ∃ r, ReservedAt r (withBootstrapPeers peers) is) := by
  have hflag : (machine.after (withBootstrapPeers peers) is).relayReserved = true ↔
      machine.Since Accepts Forgets (withBootstrapPeers peers) is :=
    Mealy.Machine.after_iff_since (m := machine) (P := fun t => t.relayReserved = true) is
      (fun h => by cases h) fun t i => t.relayReserved_transition i.1 i.2
  exact ⟨hflag, fun h => exists_reservedAt hfrom (hflag.mp h)⟩

/-- Two relays grant a reservation, and one of them fails. -/
def twoRelaysRun : List (Env × Event) :=
  [(.sorted, .relayReservationAccepted ⟨1⟩), (.sorted, .relayReservationAccepted ⟨2⟩),
    (.sorted, .relayReservationFailed ⟨2⟩ "closed")]

/-- Both relays are bootstrap peers. -/
theorem twoRelaysRun_fromBootstrap :
    machine.Guarded AcceptsFromBootstrap (withBootstrapPeers {⟨1⟩, ⟨2⟩}) twoRelaysRun := by
  refine ⟨fun r h => ?_, fun r h => ?_, fun r h => (by cases h), trivial⟩
  · cases h
    exact Finset.mem_insert_self _ _
  · cases h
    exact Finset.mem_insert_of_mem (Finset.mem_singleton_self _)

/-- The flag is cleared by the failure. -/
theorem relayReserved_iff_two_relays :
    ((machine.after (withBootstrapPeers {⟨1⟩, ⟨2⟩}) twoRelaysRun).relayReserved = true ↔
      machine.Since Accepts Forgets (withBootstrapPeers {⟨1⟩, ⟨2⟩}) twoRelaysRun) ∧
    ((machine.after (withBootstrapPeers {⟨1⟩, ⟨2⟩}) twoRelaysRun).relayReserved = true →
      ∃ r, ReservedAt r (withBootstrapPeers {⟨1⟩, ⟨2⟩}) twoRelaysRun) := by
  have h := relayReserved_iff {⟨1⟩, ⟨2⟩} twoRelaysRun twoRelaysRun_fromBootstrap
  exact h

/-- The other relay holds its reservation all the while. -/
theorem reservation_forgotten_elsewhere :
    machine.Guarded AcceptsFromBootstrap (withBootstrapPeers {⟨1⟩, ⟨2⟩}) twoRelaysRun ∧
      ReservedAt ⟨1⟩ (withBootstrapPeers {⟨1⟩, ⟨2⟩}) twoRelaysRun ∧
      (machine.after (withBootstrapPeers {⟨1⟩, ⟨2⟩}) twoRelaysRun).relayReserved = false := by
  refine ⟨twoRelaysRun_fromBootstrap, ?_, by decide⟩
  refine ⟨[], _, _, rfl, rfl, ?_, ?_, trivial⟩
  · rintro (⟨_, h⟩ | h | h) <;> cases h
  · rintro (⟨_, h⟩ | h | h) <;> cases h

end PeerState

end Punchgate
