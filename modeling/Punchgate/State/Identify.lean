import Punchgate.PortMapping
import Punchgate.State.RelayRequest

/-!
# Repeated identify messages

A peer sends the list of its addresses again and again. What is known of it afterwards has a
closed form: of the listed addresses with one public IP the last one counts, and it takes the place
of all that were known with this IP. So a repeated message changes nothing. But an address that
shares its public IP with a later one of the same list has been forgotten by then, so it counts as
new and is announced each time.
-/

namespace Punchgate

namespace PeerState

/-- The last listed address with a public IP. -/
def lastListed (listed : List Multiaddr) (ip : IpAddr) : Option Multiaddr :=
  (listed.filter fun l => extractPublicIp l = some ip).getLast?

/-- The addresses known of a peer after a list of them was merged: the earlier ones whose public IP
is not listed, the listed ones without a public IP, and the last listed one of each public IP. -/
def mergedAddrs (known : Finset Multiaddr) (listed : List Multiaddr) : Finset Multiaddr :=
  (known.filter fun a => extractPublicIp a = none ∨ extractPublicIp a ∉ listed.map extractPublicIp) ∪
    ((listed.filter fun a => extractPublicIp a = none).toFinset ∪
      ((listed.filterMap extractPublicIp).filterMap (lastListed listed)).toFinset)

variable {known : Finset Multiaddr} {listed : List Multiaddr} {a b l : Multiaddr} {ip : IpAddr}
  {p : PeerId}

/-! ## The last listed address -/

theorem lastListed_concat (listed : List Multiaddr) (l : Multiaddr) (ip : IpAddr) :
    lastListed (listed ++ [l]) ip =
      if extractPublicIp l = some ip then some l else lastListed listed ip := by
  unfold lastListed
  rw [List.filter_append]
  by_cases h : extractPublicIp l = some ip
  · rw [if_pos h, List.filter_cons_of_pos (by simpa using h), List.filter_nil, List.getLast?_concat]
  · rw [if_neg h, List.filter_cons_of_neg (by simpa using h), List.filter_nil, List.append_nil]

theorem mem_of_lastListed (h : lastListed listed ip = some a) :
    a ∈ listed ∧ extractPublicIp a = some ip := by
  simpa using List.mem_filter.mp (List.mem_of_getLast? h)

theorem lastListed_eq_none_iff :
    lastListed listed ip = none ↔ some ip ∉ listed.map extractPublicIp := by
  rw [lastListed, List.getLast?_eq_none_iff, List.filter_eq_nil_iff]
  simp

/-- A listed public IP has a last address. -/
theorem exists_lastListed (hl : l ∈ listed) (hip : extractPublicIp l = some ip) :
    ∃ a, lastListed listed ip = some a := by
  rw [← Option.ne_none_iff_exists', Ne, lastListed_eq_none_iff, not_not]
  exact hip ▸ List.mem_map_of_mem hl

/-! ## The merged addresses -/

/-- Addresses without a public IP only accumulate. -/
theorem mem_mergedAddrs_of_none (h : extractPublicIp a = none) :
    a ∈ mergedAddrs known listed ↔ a ∈ known ∨ a ∈ listed := by
  have hnot : ∀ ip, lastListed listed ip ≠ some a := fun ip hlast => by
    have hsome := (mem_of_lastListed hlast).2
    rw [h] at hsome
    cases hsome
  simp [mergedAddrs, h, hnot]

/-- Of the addresses with a public IP the last listed one stays, or those known before if there is
none. -/
theorem mem_mergedAddrs_of_some (h : extractPublicIp a = some ip) :
    a ∈ mergedAddrs known listed ↔
      lastListed listed ip = some a ∨ lastListed listed ip = none ∧ a ∈ known := by
  have hlast :
      (∃ ip', (∃ l ∈ listed, extractPublicIp l = some ip') ∧ lastListed listed ip' = some a) ↔
      lastListed listed ip = some a := by
    constructor
    · rintro ⟨ip', -, hlast⟩
      rwa [Option.some.inj (h.symm.trans (mem_of_lastListed hlast).2)]
    · exact fun hlast => ⟨ip, ⟨a, mem_of_lastListed hlast⟩, hlast⟩
  rw [mergedAddrs, Finset.mem_union, Finset.mem_union, Finset.mem_filter, List.mem_toFinset,
    List.mem_toFinset, List.mem_filter, List.mem_filterMap, lastListed_eq_none_iff]
  simp only [List.mem_filterMap, hlast, h]
  simp [and_comm, or_comm]

/-- Merging one more listed address. -/
theorem mem_mergedAddrs_concat :
    a ∈ mergedAddrs known (listed ++ [l]) ↔
      a = l ∨ a ∈ mergedAddrs known listed ∧ ¬Displaces l a := by
  cases h : extractPublicIp a with
  | none =>
    have hkept : ¬Displaces l a := fun ⟨_, ip, _, hip⟩ => by
      rw [h] at hip
      cases hip
    rw [mem_mergedAddrs_of_none h, mem_mergedAddrs_of_none h]
    simp only [List.mem_append, List.mem_singleton, hkept, not_false_iff, and_true]
    tauto
  | some ip =>
    rw [mem_mergedAddrs_of_some h, mem_mergedAddrs_of_some h, lastListed_concat]
    by_cases hl : extractPublicIp l = some ip
    · by_cases hal : a = l
      · simp [hal, hl]
      · simp [hl, hal, Ne.symm hal, Displaces, h]
    · have hkept : ¬Displaces l a := fun ⟨_, ip', hl', hip⟩ => by
        rw [h] at hip
        exact hl (hl'.trans hip.symm)
      have hne : a ≠ l := fun heq => hl (heq ▸ h)
      simp [hl, hkept, hne]

/-- The loop over the listed addresses leaves the merged addresses. -/
theorem foldl_mergeIdentified_fst (p : PeerId) (known : Finset Multiaddr) (cs : List Command)
    (listed : List Multiaddr) :
    (listed.foldl (mergeIdentified p) (known, cs)).1 = mergedAddrs known listed := by
  induction listed using List.reverseRecOn with
  | nil =>
    ext a
    cases h : extractPublicIp a with
    | none => simp [mem_mergedAddrs_of_none h]
    | some ip => simp [mem_mergedAddrs_of_some h, lastListed]
  | append_singleton listed l ih =>
    ext a
    rw [List.foldl_append, List.foldl_cons, List.foldl_nil, mem_mergeIdentified, ih,
      mem_mergedAddrs_concat]

/-- Merging a list a second time changes nothing. -/
theorem mergedAddrs_mergedAddrs (known : Finset Multiaddr) (listed : List Multiaddr) :
    mergedAddrs (mergedAddrs known listed) listed = mergedAddrs known listed := by
  ext a
  cases h : extractPublicIp a with
  | none =>
    rw [mem_mergedAddrs_of_none h, mem_mergedAddrs_of_none h]
    tauto
  | some ip =>
    rw [mem_mergedAddrs_of_some h, mem_mergedAddrs_of_some h]
    tauto

/-- What an identify message leaves behind. -/
theorem transition_peerIdentified (env : Env) (s : PeerState) (p : PeerId)
    (listed : List Multiaddr) (observed : Multiaddr) :
    (s.transition env (.peerIdentified p listed observed)).1 =
      { s with knownPeers := s.knownPeers.insert p (mergedAddrs (s.knownPeers.getD p ∅) listed) } := by
  rw [← foldl_mergeIdentified_fst p (s.knownPeers.getD p ∅) [] listed]
  rfl

/-- **Identified addresses.** After an identify message, exactly the merged addresses are known of
the peer: one for each listed public IP, and all others that were known or listed. Nothing else
changes. -/
theorem identified_addrs (env : Env) (s : PeerState) (p : PeerId) (listed : List Multiaddr)
    (observed : Multiaddr) :
    let known := s.knownPeers.getD p ∅
    let s' := (s.transition env (.peerIdentified p listed observed)).1
    s'.knownPeers.get? p = some (mergedAddrs known listed) ∧
      (∀ ip, some ip ∈ listed.map extractPublicIp →
        ∃! a, a ∈ mergedAddrs known listed ∧ extractPublicIp a = some ip) ∧
      (∀ a, a ∈ known ∨ a ∈ listed → a ∉ mergedAddrs known listed →
        ∃ l ∈ listed, l ∈ mergedAddrs known listed ∧ Displaces l a) ∧
      (∀ q, q ≠ p → s'.knownPeers.get? q = s.knownPeers.get? q) ∧
      s' = { s with knownPeers := s.knownPeers.insert p (mergedAddrs known listed) } := by
  intro known s'
  have hs' : s' = { s with knownPeers := s.knownPeers.insert p (mergedAddrs known listed) } :=
    s.transition_peerIdentified env p listed observed
  refine ⟨?_, fun ip hip => ?_, fun a ha hlost => ?_, fun q hq => ?_, hs'⟩
  · rw [hs']
    exact FiniteMap.get?_insert_self _ _ _
  · obtain ⟨l, hl, hlip⟩ := List.mem_map.mp hip
    obtain ⟨a, hlast⟩ := exists_lastListed hl hlip
    have haip := (mem_of_lastListed hlast).2
    refine ⟨a, ⟨(mem_mergedAddrs_of_some haip).mpr (Or.inl hlast), haip⟩, ?_⟩
    rintro b ⟨hb, hbip⟩
    rcases (mem_mergedAddrs_of_some hbip).mp hb with hlast' | ⟨hnone, _⟩
    · exact Option.some.inj (hlast'.symm.trans hlast)
    · rw [hlast] at hnone
      cases hnone
  · cases haip : extractPublicIp a with
    | none => exact absurd ((mem_mergedAddrs_of_none haip).mpr ha) hlost
    | some ip =>
      rw [mem_mergedAddrs_of_some haip, not_or] at hlost
      obtain ⟨hnot, hknown⟩ := hlost
      -- its public IP is listed, so the last address with it has taken its place
      have hlisted : ∃ l, lastListed listed ip = some l := by
        rcases ha with ha | ha
        · rw [← Option.ne_none_iff_exists']
          exact fun hnone => hknown ⟨hnone, ha⟩
        · exact exists_lastListed ha haip
      obtain ⟨l, hlast⟩ := hlisted
      obtain ⟨hl, hlip⟩ := mem_of_lastListed hlast
      refine ⟨l, hl, (mem_mergedAddrs_of_some hlip).mpr (Or.inl hlast), ?_, ip, hlip, haip⟩
      rintro rfl
      exact hnot hlast
  · rw [hs']
    exact FiniteMap.get?_insert_of_ne _ _ hq

/-- A QUIC address. -/
def quicAddr (ip : Ipv4Addr) (port : UInt16) : Multiaddr := ⟨[.ip4 ip, .udp port, .quicV1]⟩

/-- Two ports of one IP are listed, and the second one stays. -/
theorem identified_addrs_ports :
    ∃! a, a ∈ mergedAddrs {quicAddr ⟨203, 0, 113, 2⟩ 4001}
        [quicAddr ⟨203, 0, 113, 2⟩ 4002, quicAddr ⟨203, 0, 113, 2⟩ 4003] ∧
      extractPublicIp a = some (.v4 ⟨203, 0, 113, 2⟩) := by
  have haddrs := identified_addrs .sorted
    { new with knownPeers := FiniteMap.insert ∅ ⟨1⟩ {quicAddr ⟨203, 0, 113, 2⟩ 4001} } ⟨1⟩
    [quicAddr ⟨203, 0, 113, 2⟩ 4002, quicAddr ⟨203, 0, 113, 2⟩ 4003] default
  exact haddrs.2.1 (.v4 ⟨203, 0, 113, 2⟩) (by decide)

/-! ## Announcements -/

/-- A listed address is announced if it is public and not known. -/
theorem mem_mergeIdentified_snd {q : PeerId} {acc : Finset Multiaddr × List Command} :
    .kademliaAddAddress q a ∈ (mergeIdentified p acc l).2 ↔
      .kademliaAddAddress q a ∈ acc.2 ∨ q = p ∧ a = l ∧ l ∉ acc.1 ∧ hasPublicIp l = true := by
  have hnew : l ∉ replaceStalePublicAddrForIp acc.1 l ↔ l ∉ acc.1 := by
    unfold replaceStalePublicAddrForIp
    split
    · rfl
    · rw [Finset.mem_filter]
      simp
  unfold mergeIdentified
  simp only [hnew]
  split
  · rename_i h
    simp [h]
  · rename_i h
    simp [h]

/-- An address of the list is announced if it is public and not known when its turn comes. -/
theorem mem_foldl_mergeIdentified_snd {q : PeerId} {cs : List Command} :
    .kademliaAddAddress q a ∈ (listed.foldl (mergeIdentified p) (known, cs)).2 ↔
      .kademliaAddAddress q a ∈ cs ∨ q = p ∧ hasPublicIp a = true ∧
        ∃ before after, listed = before ++ a :: after ∧ a ∉ mergedAddrs known before := by
  induction listed using List.reverseRecOn with
  | nil => simp
  | append_singleton listed l ih =>
    rw [List.foldl_append, List.foldl_cons, List.foldl_nil, mem_mergeIdentified_snd, ih,
      foldl_mergeIdentified_fst, or_assoc]
    refine or_congr_right ⟨?_, ?_⟩
    · rintro (⟨rfl, hpublic, before, after, rfl, hfresh⟩ | ⟨rfl, rfl, hfresh, hpublic⟩)
      · exact ⟨rfl, hpublic, before, after ++ [l], by simp, hfresh⟩
      · exact ⟨rfl, hpublic, listed, [], rfl, hfresh⟩
    · rintro ⟨rfl, hpublic, before, after, heq, hfresh⟩
      rcases Mealy.concat_eq_append_cons.mp heq with ⟨rfl, rfl, rfl⟩ | ⟨after, rfl, rfl⟩
      · exact Or.inr ⟨rfl, rfl, hfresh, hpublic⟩
      · exact Or.inl ⟨rfl, hpublic, before, after, rfl, hfresh⟩

/-- What an identify message announces. -/
theorem mem_transition_peerIdentified {env : Env} {s : PeerState} {observed : Multiaddr}
    {q : PeerId} :
    .kademliaAddAddress q a ∈ (s.transition env (.peerIdentified p listed observed)).2 ↔
      q = p ∧ hasPublicIp a = true ∧ ∃ before after, listed = before ++ a :: after ∧
        a ∉ mergedAddrs (s.knownPeers.getD p ∅) before := by
  have hrelay (t : PeerState) : .kademliaAddAddress q a ∉ t.maybeRequestRelay env := by
    unfold maybeRequestRelay
    split
    · split
      · split <;> simp
      · simp
    · simp
  simp only [transition, onPeerIdentified, List.mem_append, mem_foldl_mergeIdentified_snd,
    List.not_mem_nil, false_or]
  refine or_iff_left fun hmem => ?_
  split at hmem
  · exact hrelay _ hmem
  · cases hmem

/-- A list that has just been merged announces an address again if and only if two different ones
share a public IP. -/
theorem announced_again_iff (known : Finset Multiaddr) (listed : List Multiaddr) :
    (∃ a, hasPublicIp a = true ∧ ∃ before after, listed = before ++ a :: after ∧
        a ∉ mergedAddrs (mergedAddrs known listed) before) ↔
      ∃ a ∈ listed, ∃ b ∈ listed, Displaces a b := by
  constructor
  · rintro ⟨a, -, before, after, heq, hfresh⟩
    have ha : a ∈ listed := heq ▸ List.mem_append_right before List.mem_cons_self
    cases haip : extractPublicIp a with
    | none =>
      refine absurd ((mem_mergedAddrs_of_none haip).mpr (Or.inl ?_)) hfresh
      exact (mem_mergedAddrs_of_none haip).mpr (Or.inr ha)
    | some ip =>
      obtain ⟨b, hlast⟩ := exists_lastListed ha haip
      rw [mem_mergedAddrs_of_some haip, mem_mergedAddrs_of_some haip, not_or, not_and_or] at hfresh
      obtain ⟨hbefore, hfresh⟩ := hfresh
      -- the address that was met last before its turn, or in the whole list, is another one
      rcases hfresh with hsome | hgone
      · obtain ⟨c, hc⟩ := Option.ne_none_iff_exists'.mp hsome
        obtain ⟨hmem, hcip⟩ := mem_of_lastListed hc
        refine ⟨c, heq ▸ List.mem_append_left _ hmem, a, ha, ?_, ip, hcip, haip⟩
        rintro rfl
        exact hbefore hc
      · obtain ⟨hb, hbip⟩ := mem_of_lastListed hlast
        refine ⟨b, hb, a, ha, ?_, ip, hbip, haip⟩
        rintro rfl
        exact hgone (Or.inl hlast)
  · rintro ⟨a, ha, b, hb, hne, ip, haip, hbip⟩
    by_contra hnone
    -- while nothing is announced, every address with the IP is the last one of them
    have hsame : ∀ before after, listed = before ++ after → ∀ x ∈ before,
        extractPublicIp x = some ip → lastListed listed ip = some x := by
      intro before
      induction before using List.reverseRecOn with
      | nil => exact fun _ _ x hx => by cases hx
      | append_singleton before y ih =>
        intro after heq x hx hxip
        have hsplit : listed = before ++ y :: after := by simpa using heq
        rcases List.mem_append.mp hx with hx | hx
        · exact ih (y :: after) hsplit x hx hxip
        · obtain rfl := List.mem_singleton.mp hx
          have hknown : x ∈ mergedAddrs (mergedAddrs known listed) before := by
            by_contra hfresh
            exact hnone ⟨x, hasPublicIp_of_extractPublicIp hxip, before, after, hsplit, hfresh⟩
          rcases (mem_mergedAddrs_of_some hxip).mp hknown with hlast | ⟨-, hmerged⟩
          · exact ih (x :: after) hsplit x (mem_of_lastListed hlast).1 hxip
          · rcases (mem_mergedAddrs_of_some hxip).mp hmerged with hlast | ⟨hempty, -⟩
            · exact hlast
            · have hx' : x ∈ listed := hsplit ▸ List.mem_append_right before List.mem_cons_self
              obtain ⟨c, hc⟩ := exists_lastListed hx' hxip
              rw [hc] at hempty
              cases hempty
    have hwhole := hsame listed [] (List.append_nil listed).symm
    exact hne (Option.some.inj ((hwhole a ha haip).symm.trans (hwhole b hb hbip)))

/-- **Identify messages repeated.** Delivered again, an identify message leaves the state as it is.
It announces no address again if and only if no two different ones of its list share a public IP. -/
theorem identified_again_iff (env env' : Env) (s : PeerState) (p : PeerId)
    (listed : List Multiaddr) (observed : Multiaddr) :
    let e : Event := .peerIdentified p listed observed
    let once := (s.transition env e).1
    (once.transition env' e).1 = once ∧
      ((∀ q a, .kademliaAddAddress q a ∉ (once.transition env' e).2) ↔
        ∀ a ∈ listed, ∀ b ∈ listed, ¬Displaces a b) := by
  intro e once
  have honce : once =
      { s with knownPeers := s.knownPeers.insert p (mergedAddrs (s.knownPeers.getD p ∅) listed) } :=
    s.transition_peerIdentified env p listed observed
  have hknown : once.knownPeers.getD p ∅ = mergedAddrs (s.knownPeers.getD p ∅) listed := by
    rw [honce, FiniteMap.getD, FiniteMap.get?_insert_self]
    rfl
  constructor
  · rw [transition_peerIdentified, hknown, mergedAddrs_mergedAddrs, honce]
    congr 1
    ext1 q
    by_cases hq : q = p
    · rw [hq, FiniteMap.get?_insert_self, FiniteMap.get?_insert_self]
    · rw [FiniteMap.get?_insert_of_ne _ _ hq]
  · have hagain := not_congr (announced_again_iff (s.knownPeers.getD p ∅) listed)
    push Not at hagain
    refine Iff.trans ?_ hagain
    simp only [e, mem_transition_peerIdentified, hknown]
    constructor
    · intro h a hpublic before after heq
      by_contra hfresh
      exact h p a ⟨rfl, hpublic, before, after, heq, hfresh⟩
    · rintro h q a ⟨-, hpublic, before, after, heq, hfresh⟩
      exact hfresh (h a hpublic before after heq)

/-- A peer that lists two ports of one IP: the first one is announced by every message. -/
theorem announced_again_two_ports :
    let e : Event := .peerIdentified ⟨1⟩
      [quicAddr ⟨203, 0, 113, 2⟩ 4001, quicAddr ⟨203, 0, 113, 2⟩ 4002] default
    let once := (new.transition .sorted e).1
    .kademliaAddAddress ⟨1⟩ (quicAddr ⟨203, 0, 113, 2⟩ 4001) ∈ (once.transition .sorted e).2 := by
  decide

/-- **Public addresses.** The classifiers agree on an address if and only if its public IPs are
tested by all of them. Such an address is a direct candidate, or announced by an identify message,
only with a routable IP. -/
theorem classifiers_agree_iff (addr : Multiaddr) :
    (addr.ClassifiersAgree ↔ addr.Tested) ∧
      (addr.Tested →
        isSupportedDirectCandidate addr = true ∨ (∃ env s p listed observed,
          .kademliaAddAddress p addr ∈
            (transition env s (.peerIdentified p listed observed)).2) →
        ∃ ip ∈ addr.publicIps, isPubliclyRoutable ip = true) := by
  refine ⟨classifiersAgree_iff_tested, fun htested hused => ?_⟩
  refine (classifiersAgree_iff_tested.mpr htested).1 ?_
  rcases hused with hcandidate | ⟨env, s, p, listed, observed, hannounced⟩
  · simp only [isSupportedDirectCandidate, Bool.and_eq_true] at hcandidate
    exact hcandidate.2
  · exact (mem_transition_peerIdentified.mp hannounced).2.1

/-- An ordinary public address is a direct candidate with a routable IP. -/
theorem classifiers_agree_iff_ordinary :
    ∃ ip ∈ (quicAddr ⟨203, 0, 113, 2⟩ 4001).publicIps, isPubliclyRoutable ip = true := by
  refine (classifiers_agree_iff (quicAddr ⟨203, 0, 113, 2⟩ 4001)).2 ⟨?_, ?_⟩ (Or.inl (by decide))
  · exact fun _ => ⟨.v4 ⟨203, 0, 113, 2⟩, by decide, by decide⟩
  · intro _ ip hip
    rw [← Option.some.inj hip]
    decide

/-- An address behind the NAT of a carrier: a direct candidate, and announced. -/
theorem carrier_address_announced :
    let addr := quicAddr ⟨100, 64, 0, 1⟩ 4001
    ¬addr.ClassifiersAgree ∧ isSupportedDirectCandidate addr = true ∧
      .kademliaAddAddress ⟨1⟩ addr ∈
        (transition .sorted new (.peerIdentified ⟨1⟩ [addr] addr)).2 := by
  intro addr
  refine ⟨fun hagree => ?_, by decide, by decide⟩
  have hroutable := (hagree.2 (.v4 ⟨100, 64, 0, 1⟩) 4001 (by decide)).2
  exact absurd hroutable (by decide)

end PeerState

end Punchgate
