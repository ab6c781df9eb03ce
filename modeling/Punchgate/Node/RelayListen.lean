import Punchgate.Node.Execute
import Punchgate.State.RelayRequest

/-!
# The listen address of a reservation

The node listens at a relay under the transport address it takes from the address it asks for the
reservation at. An address that leads to the relay through another one begins with the transport
address of that other relay, and it counts as public.
-/

namespace Punchgate

/-- The components of an address before the first peer id. -/
def Multiaddr.transport (addr : Multiaddr) : List Protocol :=
  addr.protocols.takeWhile fun | .p2p _ => false | _ => true

namespace PeerState

/-- A reservation is asked for at a direct public address of the peer itself, if it has one, and so
the listen address begins with a transport address of the peer. -/
def RequestsDirectly (s : PeerState) (e : Event) (p : PeerId) : Prop :=
  ∀ env a addrs, .requestRelayReservation p a ∈ (s.transition env e).2 →
    (s.transition env e).1.knownPeers.get? p = some addrs →
    (∃ c ∈ addrs, isValidExternalCandidate c = true) →
    isValidExternalCandidate a = true ∧ ∃ c ∈ addrs, hasP2pCircuit c = false ∧
      relayListenAddr p a = ⟨c.transport ++ [.p2p p, .p2pCircuit]⟩

/-- The node looks for a relay while a bootstrap peer has a direct public address and a public
address that leads through another relay. -/
def MayRequestThroughRelay (s : PeerState) (e : Event) (p : PeerId) : Prop :=
  s.LooksForRelay e ∧ p ∈ s.bootstrapPeers ∧
    (∃ a, s.Remembered e p a ∧ isValidExternalCandidate a = true) ∧
    ∃ a, s.Remembered e p a ∧ hasP2pCircuit a = true ∧ hasPublicIp a = true

/-- **Relay addresses.** In every state that can be reached, every request for a reservation is at a
direct public address of the peer if it has one, in whatever order the node walks over its peers
and their addresses, unless the peer also has a public address that leads through a relay. -/
theorem requestsDirectly_iff (peers : Finset PeerId) (is : List (Env × Event)) (e : Event)
    (p : PeerId) :
    let s := machine.after (withBootstrapPeers peers) is
    s.RequestsDirectly e p ↔ ¬s.MayRequestThroughRelay e p := by
  intro s
  constructor
  · rintro hall ⟨hlooks, hp, ⟨c, hc, hvalid⟩, a, ha, hcircuit, hpublic⟩
    have hprompts := hlooks.prompts
    let env : Env := { Env.sorted with
      peerOrder := Env.sorted.peerOrder.moveToFront p
      addrOrder := Env.sorted.addrOrder.moveToFront a }
    obtain ⟨hpeers, hneeds, _, hrequests⟩ := transition_prompted env hprompts
    obtain ⟨addrs, hget⟩ := ha.known env hprompts
    have hchosen : preferPublicAddr env addrs = some a :=
      preferPublicAddr_moveToFront { Env.sorted with
        peerOrder := Env.sorted.peerOrder.moveToFront p }
        ((mem_knownPeers_prompted env hprompts hget).mpr ha) hpublic
    have hmem : (p, a) ∈ relayRequests (s.transition env e).2 := by
      rw [hrequests, relayRequests_moveToFront
        { Env.sorted with addrOrder := Env.sorted.addrOrder.moveToFront a } (hneeds.mpr hlooks)
        (hpeers ▸ hp) hget]
      exact Option.mem_toList.mpr (Option.map_eq_some_iff.mpr ⟨a, hchosen, rfl⟩)
    obtain ⟨hvalid', _⟩ := hall env a addrs (mem_relayRequests.mp hmem) hget
      ⟨c, (mem_knownPeers_prompted env hprompts hget).mpr hc, hvalid⟩
    simp [isValidExternalCandidate, hcircuit] at hvalid'
  · rintro hnot env a addrs hmem hget ⟨c, hc, hvalid⟩
    have hprompts := prompts_of_relayRequest hmem
    obtain ⟨hpeers, hneeds, _, hrequests⟩ := transition_prompted env hprompts
    have hrequest := mem_relayRequests.mpr hmem
    rw [hrequests] at hrequest
    obtain ⟨hneeds', hp, addrs', hget', hchosen⟩ := relayRequest_cases hrequest
    rw [hget] at hget'
    cases hget'
    have hdirect : hasP2pCircuit c = false ∧ hasPublicIp c = true := by
      simpa [isValidExternalCandidate] using hvalid
    have ha := mem_of_preferPublicAddr hchosen
    have hpublic := hasPublicIp_of_preferPublicAddr hchosen ⟨c, hc, hdirect.2⟩
    have hcircuit : hasP2pCircuit a = false := by
      by_contra hcircuit
      exact hnot ⟨hneeds.mp hneeds', hpeers ▸ hp,
        ⟨c, (mem_knownPeers_prompted env hprompts hget).mp hc, hvalid⟩,
        a, (mem_knownPeers_prompted env hprompts hget).mp ha,
        Bool.eq_true_of_not_eq_false hcircuit, hpublic⟩
    exact ⟨by simp [isValidExternalCandidate, hcircuit, hpublic], a, ha, hcircuit, rfl⟩

/-- A bootstrap peer lists its own address and one that leads through relay 9. The node listens at
the transport address of that relay. -/
theorem listens_through_other_relay :
    let direct : Multiaddr := ⟨[.ip4 ⟨203, 0, 113, 1⟩, .udp 4001, .quicV1]⟩
    let circuit : Multiaddr :=
      ⟨[.ip4 ⟨198, 51, 100, 9⟩, .udp 4001, .quicV1, .p2p ⟨9⟩, .p2pCircuit, .p2p ⟨1⟩]⟩
    let s := machine.after (withBootstrapPeers {⟨1⟩}) [(.sorted, .natStatusChanged .isPrivate)]
    let step := s.transition .sorted (.peerIdentified ⟨1⟩ [direct, circuit] default)
    isValidExternalCandidate direct = true ∧
      step.1.knownPeers.get? ⟨1⟩ = some {direct, circuit} ∧
      .requestRelayReservation ⟨1⟩ circuit ∈ step.2 ∧
      relayListenAddr ⟨1⟩ circuit =
        ⟨[.ip4 ⟨198, 51, 100, 9⟩, .udp 4001, .quicV1, .p2p ⟨1⟩, .p2pCircuit]⟩ := by
  decide

end PeerState

end Punchgate
