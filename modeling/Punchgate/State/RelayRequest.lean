import Punchgate.State.Phase

/-!
# Relay requests

A node behind a NAT asks a bootstrap peer for a relay reservation. It takes the first bootstrap
peer it comes across among the known ones, and the first public address it comes across among
those of that peer. So it asks nobody if that peer is known without an address, and it builds its
listen address from the address of another relay if that address is one that leads through it.
-/

namespace Punchgate

/-- The addresses an event lists for a peer. -/
def Event.listed (p : PeerId) : Event → List Multiaddr
  | .peerIdentified peer listenAddrs _ => if peer = p then listenAddrs else []
  | _ => []

/-- An event is an identify message of the peer. -/
def Event.identifies (p : PeerId) : Event → Bool
  | .peerIdentified peer _ _ => peer = p
  | _ => false

theorem Event.listed_eq_nil {p : PeerId} {e : Event} (h : ¬e.identifies p = true) :
    e.listed p = [] := by
  cases e <;> simp_all [listed, identifies]

/-- The relay requests among some commands. -/
def relayRequests (cs : List Command) : List (PeerId × Multiaddr) :=
  cs.filterMap fun
    | .requestRelayReservation relayPeer relayAddr => some (relayPeer, relayAddr)
    | _ => none

namespace PeerState

/-- An event after which the node looks for a relay if it needs one. -/
def Prompts (s : PeerState) : Event → Prop
  | .natStatusChanged status => status = .isPrivate
  | .relayReservationFailed _ _ => True
  | .peerIdentified peer _ _ => peer ∈ s.bootstrapPeers
  | _ => False

/-- The node is behind a NAT and has no reservation. -/
def NeedsRelay (s : PeerState) : Prop := s.natStatus = .isPrivate ∧ s.relayReserved = false

/-- Some bootstrap peer is known with an address. -/
def KnowsRelay (s : PeerState) : Prop :=
  ∃ p ∈ s.bootstrapPeers, ∃ addrs, s.knownPeers.get? p = some addrs ∧ addrs ≠ ∅

/-- Exactly one reservation is asked for, from a known bootstrap peer at a known address of it. -/
def RequestsRelay (s : PeerState) (cs : List Command) : Prop :=
  ∃ p a addrs, relayRequests cs = [(p, a)] ∧ p ∈ s.bootstrapPeers ∧
    s.knownPeers.get? p = some addrs ∧ a ∈ addrs

/-- An event at which the node looks for a relay, told from the state before it. -/
def LooksForRelay (s : PeerState) : Event → Prop
  | .natStatusChanged status => status = .isPrivate ∧ s.relayReserved = false
  | .relayReservationFailed _ _ => s.natStatus = .isPrivate
  | .peerIdentified peer _ _ => peer ∈ s.bootstrapPeers ∧ s.NeedsRelay
  | _ => False

/-- A peer is known without an address, or about to be. -/
def Bare (s : PeerState) (e : Event) (p : PeerId) : Prop :=
  (s.knownPeers.contains p = true ∨ e.identifies p = true) ∧ s.knownPeers.getD p ∅ = ∅ ∧
    e.listed p = []

/-- A peer is known with an address, or about to be. -/
def Addressed (s : PeerState) (e : Event) (p : PeerId) : Prop :=
  s.knownPeers.getD p ∅ ≠ ∅ ∨ e.listed p ≠ []

/-- The search for a relay may end at a bootstrap peer without an address, while another one has
an address. -/
def MayMissRelay (s : PeerState) (e : Event) : Prop :=
  s.LooksForRelay e ∧ (∃ p ∈ s.bootstrapPeers, s.Bare e p) ∧ ∃ p ∈ s.bootstrapPeers, s.Addressed e p

/-! ## The choice of an address -/

variable {env : Env} {s : PeerState} {e : Event} {p : PeerId} {addrs : Finset Multiaddr}
  {a : Multiaddr}

/-- The chosen address is one of the peer. -/
theorem mem_of_preferPublicAddr (h : preferPublicAddr env addrs = some a) : a ∈ addrs := by
  rw [← env.addrOrder.mem_iff]
  unfold preferPublicAddr at h
  rcases Option.or_eq_some_iff.mp h with h | ⟨_, h⟩
  · exact List.mem_of_find?_eq_some h
  · rcases Option.or_eq_some_iff.mp h with h | ⟨_, h⟩
    · exact List.mem_of_find?_eq_some h
    · exact List.mem_of_mem_head? h

/-- An address is chosen if there is one. -/
theorem exists_preferPublicAddr (env : Env) (h : addrs ≠ ∅) :
    ∃ a, preferPublicAddr env addrs = some a := by
  obtain ⟨a, ha⟩ := Finset.nonempty_iff_ne_empty.mpr h
  rw [← env.addrOrder.mem_iff] at ha
  unfold preferPublicAddr
  rw [← Option.isSome_iff_exists, Option.isSome_or, Option.isSome_or]
  cases hlist : env.addrOrder.toList addrs with
  | nil =>
    rw [hlist] at ha
    cases ha
  | cons b bs => simp

/-- The chosen address is a public one if there is one. -/
theorem hasPublicIp_of_preferPublicAddr (h : preferPublicAddr env addrs = some a)
    (hpublic : ∃ b ∈ addrs, hasPublicIp b = true) : hasPublicIp a = true := by
  obtain ⟨b, hb, hb'⟩ := hpublic
  rw [← env.addrOrder.mem_iff] at hb
  unfold preferPublicAddr at h
  dsimp only at h
  cases hfind : (env.addrOrder.toList addrs).find? hasPublicIp with
  | some c =>
    rw [hfind] at h
    cases h
    exact List.find?_some hfind
  | none => exact absurd hb' (List.find?_eq_none.mp hfind b hb)

/-- A public address that is visited first is chosen. -/
theorem preferPublicAddr_moveToFront (env : Env) (ha : a ∈ addrs) (hpublic : hasPublicIp a = true) :
    preferPublicAddr { env with addrOrder := env.addrOrder.moveToFront a } addrs = some a := by
  unfold preferPublicAddr
  dsimp only
  rw [env.addrOrder.toList_moveToFront ha, List.find?_cons_of_pos hpublic]
  rfl

/-! ## The addresses of an identified peer -/

/-- A newly listed address takes the place of another one with the same public IP. -/
def Displaces (l a : Multiaddr) : Prop :=
  l ≠ a ∧ ∃ ip, extractPublicIp l = some ip ∧ extractPublicIp a = some ip

/-- An address is known of a peer after an event: it was known before or it is listed, and nothing
that is listed later takes its place. -/
def Remembered (s : PeerState) (e : Event) (p : PeerId) (a : Multiaddr) : Prop :=
  (a ∈ s.knownPeers.getD p ∅ ∧ ∀ l ∈ e.listed p, ¬Displaces l a) ∨
    ∃ before after, e.listed p = before ++ a :: after ∧ ∀ l ∈ after, ¬Displaces l a

/-- Merging a listed address keeps the others, unless it takes their place. -/
theorem mem_mergeIdentified {acc : Finset Multiaddr × List Command} {l : Multiaddr} :
    a ∈ (mergeIdentified p acc l).1 ↔ a = l ∨ a ∈ acc.1 ∧ ¬Displaces l a := by
  unfold mergeIdentified replaceStalePublicAddrForIp
  dsimp only
  rw [Finset.mem_insert]
  by_cases hal : a = l
  · simp [hal]
  · cases hip : extractPublicIp l with
    | none => simp [hal, Displaces, hip]
    | some ip => simp [hal, Displaces, hip, Ne.symm hal]

/-- The addresses after the listed ones have been merged. -/
theorem mem_foldl_mergeIdentified_iff {listed : List Multiaddr}
    {acc : Finset Multiaddr × List Command} :
    a ∈ (listed.foldl (mergeIdentified p) acc).1 ↔
      (a ∈ acc.1 ∧ ∀ l ∈ listed, ¬Displaces l a) ∨
        ∃ before after, listed = before ++ a :: after ∧ ∀ l ∈ after, ¬Displaces l a := by
  induction listed using List.reverseRecOn with
  | nil => simp
  | append_singleton listed l ih =>
    rw [List.foldl_append, List.foldl_cons, List.foldl_nil, mem_mergeIdentified, ih]
    constructor
    · rintro (rfl | ⟨⟨ha, hlisted⟩ | ⟨before, after, rfl, hafter⟩, hl⟩)
      · exact Or.inr ⟨listed, [], rfl, fun l hl => by cases hl⟩
      · refine Or.inl ⟨ha, fun l' hl' => ?_⟩
        rcases List.mem_append.mp hl' with hl' | hl'
        · exact hlisted l' hl'
        · rw [List.mem_singleton.mp hl']
          exact hl
      · refine Or.inr ⟨before, after ++ [l], by simp, fun l' hl' => ?_⟩
        rcases List.mem_append.mp hl' with hl' | hl'
        · exact hafter l' hl'
        · rw [List.mem_singleton.mp hl']
          exact hl
    · rintro (⟨ha, hlisted⟩ | ⟨before, after, heq, hafter⟩)
      · exact Or.inr ⟨Or.inl ⟨ha, fun l' hl' => hlisted l' (List.mem_append_left _ hl')⟩,
          hlisted l (List.mem_append_right _ (List.mem_singleton_self l))⟩
      · rcases Mealy.concat_eq_append_cons.mp heq with ⟨rfl, rfl, rfl⟩ | ⟨after, rfl, rfl⟩
        · exact Or.inl rfl
        · exact Or.inr ⟨Or.inr ⟨before, after, rfl, fun l' hl' =>
            hafter l' (List.mem_append_left _ hl')⟩,
            hafter l (List.mem_append_right _ (List.mem_singleton_self l))⟩

/-- A peer without an address has none after it was identified without one. -/
theorem foldl_mergeIdentified_eq_empty {listed : List Multiaddr}
    {acc : Finset Multiaddr × List Command} :
    (listed.foldl (mergeIdentified p) acc).1 = ∅ ↔ acc.1 = ∅ ∧ listed = [] := by
  induction listed using List.reverseRecOn with
  | nil => simp
  | append_singleton listed l _ =>
    rw [List.foldl_append, List.foldl_cons, List.foldl_nil]
    refine iff_of_false (fun h => ?_) (by simp)
    have hl : l ∈ (mergeIdentified p (listed.foldl (mergeIdentified p) acc) l).1 :=
      mem_mergeIdentified.mpr (Or.inl rfl)
    rw [h] at hl
    exact Finset.notMem_empty l hl

/-! ## One step -/

/-- A relay is asked for a reservation among the commands of a search. -/
theorem mem_relayRequests {cs : List Command} :
    (p, a) ∈ relayRequests cs ↔ .requestRelayReservation p a ∈ cs := by
  unfold relayRequests
  rw [List.mem_filterMap]
  constructor
  · rintro ⟨c, hc, heq⟩
    cases c <;> cases heq
    exact hc
  · intro h
    exact ⟨_, h, rfl⟩

/-- Merging listed addresses asks for no relay. -/
theorem relayRequests_foldl_mergeIdentified (listed : List Multiaddr) (known : Finset Multiaddr) :
    relayRequests (listed.foldl (mergeIdentified p) (known, [])).2 = [] := by
  refine List.filterMap_eq_nil_iff.mpr fun c hc => ?_
  rcases mem_foldl_mergeIdentified hc with hc | ⟨addr, rfl⟩
  · cases hc
  · rfl

/-- What an event that prompts a search leaves behind: the bootstrap peers, the known peers with
what was listed, and the commands of the search. -/
theorem transition_prompted (env : Env) (h : s.Prompts e) :
    (s.transition env e).1.bootstrapPeers = s.bootstrapPeers ∧
    ((s.transition env e).1.NeedsRelay ↔ s.LooksForRelay e) ∧
    (∀ p, (s.transition env e).1.knownPeers.get? p =
      if e.identifies p = true then
        some ((e.listed p).foldl (mergeIdentified p) (s.knownPeers.getD p ∅, [])).1
      else s.knownPeers.get? p) ∧
    relayRequests (s.transition env e).2 =
      relayRequests ((s.transition env e).1.maybeRequestRelay env) := by
  cases e with
  | natStatusChanged status =>
    cases h
    cases hreserved : s.relayReserved <;>
      simp [transition, onNatStatusChanged, hreserved, NeedsRelay, LooksForRelay, Event.identifies,
        maybeRequestRelay]
  | relayReservationFailed peer reason =>
    simp [transition, NeedsRelay, LooksForRelay, Event.identifies]
  | peerIdentified peer listed observed =>
    have hpeer : peer ∈ s.bootstrapPeers := h
    refine ⟨rfl, ?_, fun p => ?_, ?_⟩
    · simp only [LooksForRelay, hpeer, true_and]
      rfl
    · by_cases hp : peer = p
      · subst hp
        simp [transition, onPeerIdentified, Event.identifies, Event.listed]
      · simp [transition, onPeerIdentified, Event.identifies, hp, Ne.symm hp]
    · have hnone := relayRequests_foldl_mergeIdentified (p := peer) listed (s.knownPeers.getD peer ∅)
      unfold relayRequests at hnone ⊢
      simp only [transition, onPeerIdentified, List.filterMap_append, hnone, hpeer, if_true,
        List.nil_append]
  | _ => cases h

/-- A reservation is asked for only when an event prompts the search. -/
theorem prompts_of_relayRequest (h : .requestRelayReservation p a ∈ (s.transition env e).2) :
    s.Prompts e := by
  cases e with
  | relayReservationFailed => trivial
  | natStatusChanged status =>
    simp only [transition, onNatStatusChanged] at h
    split at h
    · rfl
    · cases h
    · cases h
  | peerIdentified peer listed observed =>
    have hmem := mem_relayRequests.mpr h
    have hnone := relayRequests_foldl_mergeIdentified (p := peer) listed (s.knownPeers.getD peer ∅)
    by_contra hpeer
    have hpeer' : peer ∉ s.bootstrapPeers := hpeer
    unfold relayRequests at hmem hnone
    simp only [transition, onPeerIdentified, List.filterMap_append, hnone, hpeer', if_false,
      List.nil_append] at hmem
    cases hmem
  | bootstrapConnected peer addr =>
    simp only [transition, List.mem_cons] at h
    rcases h with h | h
    · cases h
    · split at h <;> simp at h
  | mdnsDiscovered peers =>
    obtain ⟨_, _, heq⟩ := List.mem_map.mp h
    cases heq
  | shutdownRequested => simp [transition] at h
  | connectionLost peer remaining =>
    simp only [transition, onFullyDisconnected] at h
    split at h
    · split at h <;> simp at h
    · cases h
  | discoveryTimeout =>
    simp only [transition] at h
    split at h <;> cases h
  | _ => cases h

/-- The known addresses of a peer after an event that prompts a search. -/
theorem mem_knownPeers_prompted (env : Env) (h : s.Prompts e)
    (hget : (s.transition env e).1.knownPeers.get? p = some addrs) :
    a ∈ addrs ↔ s.Remembered e p a := by
  obtain ⟨_, _, hknown, _⟩ := transition_prompted env h
  rw [hknown p] at hget
  split at hget
  · cases hget
    exact mem_foldl_mergeIdentified_iff
  · rename_i hother
    have hlisted := Event.listed_eq_nil hother
    simp [Remembered, hlisted, FiniteMap.getD, hget]

/-- A peer of which an address is known after such an event is known. -/
theorem Remembered.known (env : Env) (h : s.Prompts e) (ha : s.Remembered e p a) :
    ∃ addrs, (s.transition env e).1.knownPeers.get? p = some addrs := by
  obtain ⟨_, _, hknown, _⟩ := transition_prompted env h
  rw [hknown p]
  split
  · exact ⟨_, rfl⟩
  · rename_i hother
    rw [Remembered, Event.listed_eq_nil hother] at ha
    cases hget : s.knownPeers.get? p with
    | some addrs => exact ⟨addrs, rfl⟩
    | none => simp [FiniteMap.getD, hget] at ha

/-- A peer that is known after such an event has an address unless it is bare. -/
theorem knownPeers_prompted_eq_empty (env : Env) (h : s.Prompts e) :
    (s.transition env e).1.knownPeers.get? p = some ∅ ↔ s.Bare e p := by
  obtain ⟨_, _, hknown, _⟩ := transition_prompted env h
  rw [hknown p, Bare]
  split
  · rename_i hidentified
    simp only [Option.some.injEq, foldl_mergeIdentified_eq_empty, hidentified, or_true, true_and]
  · rename_i hother
    have hlisted := Event.listed_eq_nil hother
    cases hget : s.knownPeers.get? p <;>
      simp [FiniteMap.getD, FiniteMap.contains, hget, hlisted, hother]

/-- A bootstrap peer is known with an address after such an event if it was before, or if the
event lists one. -/
theorem knowsRelay_prompted (env : Env) (h : s.Prompts e) :
    (s.transition env e).1.KnowsRelay ↔ ∃ p ∈ s.bootstrapPeers, s.Addressed e p := by
  obtain ⟨hpeers, _, hknown, _⟩ := transition_prompted env h
  unfold KnowsRelay
  rw [hpeers]
  refine exists_congr fun p => and_congr_right fun _ => ?_
  rw [hknown p, Addressed]
  split
  · simp only [Option.some.injEq, exists_eq_left', ne_eq, foldl_mergeIdentified_eq_empty]
    rw [not_and_or]
  · rename_i hother
    have hlisted := Event.listed_eq_nil hother
    cases hget : s.knownPeers.get? p <;> simp [FiniteMap.getD, hget, hlisted]

/-- An event at which the node looks for a relay prompts the search. -/
theorem LooksForRelay.prompts (h : s.LooksForRelay e) : s.Prompts e := by
  cases e <;> first | exact h.1 | exact trivial | cases h

/-- The search asks the first known bootstrap peer for a reservation, at the address chosen among
those of this peer. -/
theorem relayRequests_maybeRequestRelay (h : s.NeedsRelay) :
    relayRequests (s.maybeRequestRelay env) =
      match (s.knownPeers.entries env.peerOrder).find? fun e => decide (e.1 ∈ s.bootstrapPeers) with
      | some (peer, addrs) => ((preferPublicAddr env addrs).map (peer, ·)).toList
      | none => [] := by
  unfold maybeRequestRelay
  rw [h.1, h.2]
  dsimp only
  generalize (s.knownPeers.entries env.peerOrder).find? _ = found
  rcases found with _ | ⟨peer, addrs⟩
  · rfl
  · dsimp only
    cases preferPublicAddr env addrs <;> rfl

/-- A request goes to a known bootstrap peer, at the address chosen among those of this peer. -/
theorem relayRequest_cases (h : (p, a) ∈ relayRequests (s.maybeRequestRelay env)) :
    s.NeedsRelay ∧ p ∈ s.bootstrapPeers ∧ ∃ addrs, s.knownPeers.get? p = some addrs ∧
      preferPublicAddr env addrs = some a := by
  have hneeds : s.NeedsRelay := by
    unfold maybeRequestRelay at h
    split at h
    · rename_i hnat hreserved
      exact ⟨hnat, hreserved⟩
    · cases h
  rw [relayRequests_maybeRequestRelay hneeds] at h
  split at h
  · rename_i peer addrs hfind
    obtain ⟨a', ha', heq⟩ := Option.map_eq_some_iff.mp (Option.mem_toList.mp h)
    cases heq
    have hpeer := List.find?_some hfind
    exact ⟨hneeds, of_decide_eq_true hpeer, addrs,
      FiniteMap.mem_entries.mp (List.mem_of_find?_eq_some hfind), ha'⟩
  · cases h

/-- The peer that is visited first is the one the search ends at. -/
theorem relayRequests_moveToFront (env : Env) (h : s.NeedsRelay) (hp : p ∈ s.bootstrapPeers)
    (hget : s.knownPeers.get? p = some addrs) :
    relayRequests
        (s.maybeRequestRelay { env with peerOrder := env.peerOrder.moveToFront p }) =
      ((preferPublicAddr env addrs).map (p, ·)).toList := by
  obtain ⟨es, hes⟩ := s.knownPeers.entries_moveToFront env.peerOrder hget
  rw [relayRequests_maybeRequestRelay h]
  dsimp only
  rw [hes, List.find?_cons_of_pos (by simpa using hp)]
  rfl

/-! ## Whether a relay is asked -/

/-- **Relay requests.** In every state that can be reached, every event after which the node needs
a relay and knows one makes it ask exactly one, in whatever order it walks over its peers, unless
the search may end at a bootstrap peer without an address. -/
theorem relay_requested_iff (peers : Finset PeerId) (is : List (Env × Event)) (e : Event) :
    let s := machine.after (withBootstrapPeers peers) is
    (∀ env, s.Prompts e → (s.transition env e).1.NeedsRelay → (s.transition env e).1.KnowsRelay →
      RequestsRelay (s.transition env e).1 (s.transition env e).2) ↔ ¬s.MayMissRelay e := by
  intro s
  constructor
  · rintro hall ⟨hlooks, ⟨p, hp, hbare⟩, haddressed⟩
    have hprompts := hlooks.prompts
    obtain ⟨hpeers, hneeds, _, hrequests⟩ := transition_prompted
      { Env.sorted with peerOrder := Env.sorted.peerOrder.moveToFront p } hprompts
    have hempty := (knownPeers_prompted_eq_empty
      { Env.sorted with peerOrder := Env.sorted.peerOrder.moveToFront p } hprompts).mpr hbare
    obtain ⟨q, a, addrs, hone, _⟩ := hall _ hprompts (hneeds.mpr hlooks)
      ((knowsRelay_prompted _ hprompts).mpr haddressed)
    rw [hrequests, relayRequests_moveToFront Env.sorted (hneeds.mpr hlooks) (hpeers ▸ hp) hempty]
      at hone
    have hnone : preferPublicAddr Env.sorted ∅ = none := by
      rw [Option.eq_none_iff_forall_ne_some]
      exact fun b hb => Finset.notMem_empty b (mem_of_preferPublicAddr hb)
    rw [hnone] at hone
    cases hone
  · intro hnot env hprompts hneeds hknows
    obtain ⟨hpeers, hneeds', _, hrequests⟩ := transition_prompted env hprompts
    have haddressed := (knowsRelay_prompted env hprompts).mp hknows
    obtain ⟨p, hp, addrs, hget, _⟩ := hknows
    have hsome : ((s.transition env e).1.knownPeers.entries env.peerOrder).find?
        (fun e' => decide (e'.1 ∈ (s.transition env e).1.bootstrapPeers)) ≠ none := by
      rw [ne_eq, List.find?_eq_none]
      exact fun h => h _ (FiniteMap.mem_entries.mpr hget) (by simpa using hp)
    obtain ⟨⟨q, addrs'⟩, hfind⟩ := Option.ne_none_iff_exists'.mp hsome
    have hq : q ∈ (s.transition env e).1.bootstrapPeers := by
      simpa using List.find?_some hfind
    have hget' := FiniteMap.mem_entries.mp (List.mem_of_find?_eq_some hfind)
    have hne : addrs' ≠ ∅ := by
      rintro rfl
      exact hnot ⟨hneeds'.mp hneeds,
        ⟨q, hpeers ▸ hq, (knownPeers_prompted_eq_empty env hprompts).mp hget'⟩,
        haddressed⟩
    obtain ⟨a, ha⟩ := exists_preferPublicAddr env hne
    refine ⟨q, a, addrs', ?_, hq, hget', mem_of_preferPublicAddr ha⟩
    rw [hrequests, relayRequests_maybeRequestRelay hneeds, hfind]
    dsimp only
    rw [ha]
    rfl

/-- Peer 1 was identified without an address, and now peer 2 is, with one. -/
theorem bare_peer_hides_relay :
    let s := machine.after (withBootstrapPeers {⟨1⟩, ⟨2⟩})
      [(.sorted, .natStatusChanged .isPrivate), (.sorted, .peerIdentified ⟨1⟩ [] default)]
    let e := Event.peerIdentified ⟨2⟩ [⟨[.ip4 ⟨203, 0, 113, 2⟩, .udp 4001, .quicV1]⟩] default
    s.Prompts e ∧ (s.transition .sorted e).1.NeedsRelay ∧ (s.transition .sorted e).1.KnowsRelay ∧
      relayRequests (s.transition .sorted e).2 = [] := by
  intro s e
  have hpeer : (⟨2⟩ : PeerId) ∈ s.bootstrapPeers := by decide
  exact ⟨hpeer, ⟨by decide, by decide⟩, ⟨⟨2⟩, hpeer, _, rfl, by decide⟩, by decide⟩

end PeerState

end Punchgate
