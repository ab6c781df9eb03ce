import Mathlib.Logic.Equiv.List
import Punchgate.Library.Ranking
import Punchgate.State.Suppression

/-!
# The addresses of a redial

A redial collects addresses from six lists: what the session keeps, the latest candidates of
the peer, and the candidates that are fresh at the time, each for both kinds. The three lists of
a kind are rankings of the same map of addresses, taken at different times, and all of them lie in
the one the session keeps. So the bounds of the two kinds together bound the whole list.
-/

namespace Punchgate

/-- Addresses of one kind, no more than its limit, without repetitions. -/
structure Shortlist (predicate : Multiaddr → Bool) (limit : ℕ) (addrs : List Multiaddr) : Prop where
  /-- No address occurs twice. -/
  nodup : addrs.Nodup
  /-- The limit is kept. -/
  length_le : addrs.length ≤ limit
  /-- Every address is of the kind. -/
  forall_mem : ∀ a ∈ addrs, predicate a = true

/-! ## Rankings -/

section Ranking

variable {env env' : Env} {predicate : Multiaddr → Bool} {limit : ℕ}

instance : Std.Total (candidateBefore env) where
  total a b := by
    unfold candidateBefore
    rcases lt_trichotomy a.2 b.2 with h | h | h
    · exact Or.inr (Or.inl h)
    · exact (le_total (env.addrText a.1) (env.addrText b.1)).imp (fun hle => Or.inr ⟨h, hle⟩)
        fun hle => Or.inr ⟨h.symm, hle⟩
    · exact Or.inl (Or.inl h)

instance : IsTrans (Multiaddr × Instant) (candidateBefore env) where
  trans a b c hab hbc := by
    unfold candidateBefore at hab hbc ⊢
    rcases hab with hab | ⟨hab, htext⟩
    · rcases hbc with hbc | ⟨hbc, _⟩
      · exact Or.inl (hbc.trans hab)
      · exact Or.inl (hbc ▸ hab)
    · rcases hbc with hbc | ⟨hbc, htext'⟩
      · exact Or.inl (hab ▸ hbc)
      · exact Or.inr ⟨hab.trans hbc, htext.trans htext'⟩

/-- Candidates with different texts are strictly ordered. -/
theorem antisymm_candidateBefore (htext : Function.Injective env.addrText) :
    Std.Antisymm (candidateBefore env) where
  antisymm a b hab hba := by
    unfold candidateBefore at hab hba
    rcases hab with hab | ⟨hseen, hle⟩
    · rcases hba with hba | ⟨hseen, _⟩
      · exact absurd hab hba.asymm
      · exact absurd hseen hab.ne
    · rcases hba with hba | ⟨_, hge⟩
      · exact absurd hseen.symm hba.ne'
      · exact Prod.ext (htext (le_antisymm hle hge)) hseen

/-- The order of candidates depends on their texts only. -/
theorem insertionSort_candidates (h : env'.addrText = env.addrText)
    (l : List (Multiaddr × Instant)) :
    l.insertionSort (candidateBefore env') = l.insertionSort (candidateBefore env) := by
  obtain ⟨now, peerText, addrText, peerOrder, serviceOrder, addrOrder, connectionOrder⟩ := env
  obtain ⟨now', peerText', addrText', peerOrder', serviceOrder', addrOrder', connectionOrder'⟩ := env'
  dsimp only at h
  subst h
  rfl

/-- Two walks of a map meet the same entries. -/
theorem entries_perm {K V : Type*} (m : FiniteMap K V) (order order' : Enumeration K) :
    (m.entries order').Perm (m.entries order) := (order.toList_perm order' m.keys).filterMap _

/-- **Fresh candidates run out from the end.** While a last-seen map does not change, its ranking
at a time is an initial part of the ranking at a time at which everything was fresh that is fresh
then. -/
theorem rankCandidates_initial {lastSeen : FiniteMap Multiaddr Instant}
    (htext : Function.Injective env.addrText) (henv : env'.addrText = env.addrText)
    (hfresh : ∀ a seenAt, lastSeen.get? a = some seenAt → isFresh env'.now seenAt = true →
      isFresh env.now seenAt = true) :
    rankCandidates env' lastSeen predicate limit <+: rankCandidates env lastSeen predicate limit := by
  have hantisymm := antisymm_candidateBefore htext
  unfold rankCandidates
  rw [insertionSort_candidates henv]
  refine List.IsPrefix.map Prod.fst (Ranking.take_initial ?_ ?_ ?_ limit)
  · exact entries_perm lastSeen env.addrOrder env'.addrOrder
  · intro e he hqualified
    rw [Bool.and_eq_true] at hqualified ⊢
    exact ⟨hfresh e.1 e.2 (FiniteMap.mem_entries.mp he) hqualified.1, hqualified.2⟩
  · intro e f hbefore hqualified hfresh
    rw [Bool.and_eq_true] at hqualified hfresh ⊢
    refine ⟨?_, hqualified.2⟩
    have hseen : f.2 ≤ e.2 := hbefore.elim le_of_lt fun h => h.1.ge
    have hage : env'.now - f.2 ≤ addressCandidateTtl := of_decide_eq_true hfresh.1
    exact decide_eq_true ((Nat.sub_le_sub_left hseen _).trans hage)

/-- A ranking is a shortlist. -/
theorem shortlist_rankCandidates (env : Env) (lastSeen : FiniteMap Multiaddr Instant)
    (predicate : Multiaddr → Bool) (limit : ℕ) :
    Shortlist predicate limit (rankCandidates env lastSeen predicate limit) where
  nodup := by
    have hkeys : ((lastSeen.entries env.addrOrder).map Prod.fst).Nodup := by
      rw [FiniteMap.map_fst_entries]
      exact env.addrOrder.nodup _
    have hqualified := hkeys.sublist (List.filter_sublist
      (p := fun e => isFresh env.now e.2 && predicate e.1).map Prod.fst)
    have hsorted := ((List.perm_insertionSort (candidateBefore env) _).map Prod.fst).nodup_iff.mpr
      hqualified
    exact hsorted.sublist ((List.take_sublist limit _).map Prod.fst)
  length_le := by
    rw [rankCandidates, List.length_map]
    exact List.length_take_le limit _
  forall_mem a ha := by
    obtain ⟨e, he, rfl⟩ := List.mem_map.mp ha
    have hmem := (List.mem_insertionSort _).mp (List.mem_of_mem_take he)
    have hqualified := (List.mem_filter.mp hmem).2
    rw [Bool.and_eq_true] at hqualified
    exact hqualified.2

/-- No candidates are a shortlist. -/
theorem shortlist_nil : Shortlist predicate limit [] :=
  ⟨List.nodup_nil, Nat.zero_le limit, fun _ h => by cases h⟩

end Ranking

/-! ## One step -/

/-- The addresses kept for a redial, of either kind, are the same in two sessions. -/
def HolePunchSession.SameSnapshots (session session' : HolePunchSession) : Prop :=
  session'.relayRedialAddrs = session.relayRedialAddrs ∧
    session'.directSnapshot = session.directSnapshot

namespace TunnelState

/-- What is known of the addresses of a peer stays, but its session may be given up. -/
structure SameAddrs (p : PeerId) (s t : TunnelState) : Prop where
  /-- The latest candidates stay. -/
  oracle : t.addressOracle.get? p = s.addressOracle.get? p
  /-- The last-seen map stays. -/
  lastSeen : t.addressLastSeen.get? p = s.addressLastSeen.get? p
  /-- A session keeps its addresses. -/
  session : ∀ session' ∈ t.holepunchSessions.get? p,
    ∃ session : HolePunchSession, s.holepunchSessions.get? p = some session ∧
      session.SameSnapshots session'

variable {env env' : Env} {s t : TunnelState} {p q : PeerId}

theorem SameAddrs.refl (p : PeerId) (s : TunnelState) : SameAddrs p s s :=
  ⟨rfl, rfl, fun session hsession => ⟨session, hsession, rfl, rfl⟩⟩

/-- Sessions that are the same up to their progress. -/
theorem SameAddrs.of_modify {f : HolePunchSession → HolePunchSession}
    (horacle : t.addressOracle = s.addressOracle) (hlast : t.addressLastSeen = s.addressLastSeen)
    (hsessions : t.holepunchSessions = s.holepunchSessions.modify q f)
    (hf : ∀ session : HolePunchSession, session.SameSnapshots (f session)) : SameAddrs p s t := by
  refine ⟨by rw [horacle], by rw [hlast], fun session' hsession' => ?_⟩
  rw [hsessions, FiniteMap.get?_modify] at hsession'
  split at hsession'
  · rename_i heq
    subst heq
    obtain ⟨session, hget, rfl⟩ := Option.map_eq_some_iff.mp hsession'
    exact ⟨session, hget, hf session⟩
  · exact ⟨session', hsession', rfl, rfl⟩

/-- Giving up a session. -/
theorem SameAddrs.of_erase (horacle : t.addressOracle = s.addressOracle)
    (hlast : t.addressLastSeen = s.addressLastSeen)
    (hsessions : t.holepunchSessions = s.holepunchSessions.erase q) : SameAddrs p s t := by
  refine ⟨by rw [horacle], by rw [hlast], fun session' hsession' => ?_⟩
  rw [hsessions, FiniteMap.get?_erase] at hsession'
  split at hsession'
  · cases hsession'
  · exact ⟨session', hsession', rfl, rfl⟩

/-- Nothing that is known of the addresses and the session of the peer changes. -/
theorem SameAddrs.of_eq (horacle : t.addressOracle.get? p = s.addressOracle.get? p)
    (hlast : t.addressLastSeen.get? p = s.addressLastSeen.get? p)
    (hsessions : t.holepunchSessions.get? p = s.holepunchSessions.get? p) : SameAddrs p s t :=
  ⟨horacle, hlast, fun session hsession => ⟨session, hsessions ▸ hsession, rfl, rfl⟩⟩

/-- A failed dial leaves the addresses of every peer alone. -/
theorem sameAddrs_onTunnelDialFailed (env : Env) (s : TunnelState) (p q : PeerId)
    (reason : String) : SameAddrs p s (s.onTunnelDialFailed env q reason).1 := by
  unfold onTunnelDialFailed
  dsimp only
  split
  · exact .refl p s
  split
  · exact .refl p s
  split
  · rename_i session _ hget
    split
    · exact .refl p s
    split
    · exact .refl p s
    · have hmodify : s.holepunchSessions.insert q { session with dialRetryDispatched := true } =
          s.holepunchSessions.modify q fun session => { session with dialRetryDispatched := true } := by
        rw [FiniteMap.modify, hget]
      exact .of_modify rfl rfl hmodify fun session => ⟨rfl, rfl⟩
  · cases hspecs : s.pendingByPeer.get? q with
    | none =>
      rw [rerouteSpecsAfterDialFailure_none hspecs]
      exact .refl p s
    | some specs =>
      rw [rerouteSpecsAfterDialFailure_state hspecs]
      exact .of_eq rfl rfl rfl

/-- A failed attempt leaves the addresses of every peer alone. -/
theorem sameAddrs_retryHolepunchAttempt (s : TunnelState) (p q : PeerId) (attemptId : ℕ) :
    SameAddrs p s (s.retryHolepunchAttempt q attemptId).1 := by
  rcases s.retryHolepunchAttempt_cases q attemptId with ⟨_, heq⟩ | ⟨_, _, _, _, heq⟩ |
    ⟨_, _, _, _, _, heq⟩
  · rw [heq]
    exact .refl p s
  · rw [heq]
    exact .of_erase rfl rfl rfl
  · rw [heq]
    exact .of_modify rfl rfl rfl fun session => ⟨rfl, rfl⟩

/-- Routing leaves the addresses of every peer alone. -/
theorem SameAddrs.routeConnectedPeer (h : SameAddrs p s t) (q : PeerId) (specs : List Intent) :
    SameAddrs p s (t.routeConnectedPeer q specs).1 := by
  unfold TunnelState.routeConnectedPeer
  split
  · exact ⟨h.oracle, h.lastSeen, h.session⟩
  · exact h

/-- Only identify messages and new attempts of a peer touch its addresses. -/
theorem sameAddrs_transition (env : Env) (s : TunnelState) {p : PeerId} {e : Event}
    (hstart : e.startedAttempt ≠ some p) (hidentified : e.identifiedPeer ≠ some p) :
    SameAddrs p s (s.transition env e).1 := by
  cases e with
  | tunnelDialFailed q reason => exact s.sameAddrs_onTunnelDialFailed env p q reason
  | peerIdentified q addrs observed =>
    have hne : p ≠ q := fun heq => hidentified (congrArg some heq.symm)
    obtain ⟨oracle, hsessions⟩ := s.holepunchSessions_updateAddressOracle env q addrs
    refine .of_eq (FiniteMap.get?_insert_of_ne _ _ hne) ?_ ?_
    · simp only [transition, updateAddressOracle, recordAddressCandidates]
      split
      · exact FiniteMap.get?_erase_of_ne _ hne
      · exact FiniteMap.get?_insert_of_ne _ _ hne
    · simp only [transition, hsessions, FiniteMap.get?_modify, if_neg hne]
  | holePunchAttemptStarted q attemptId =>
    have hne : p ≠ q := fun heq => hstart (congrArg some heq.symm)
    exact .of_eq rfl rfl (FiniteMap.get?_insert_of_ne _ _ hne)
  | connectionLost q remaining =>
    simp only [transition]
    split
    · rcases s.onFullyDisconnected_cases env q with ⟨_, _, _, heq⟩ | ⟨_, _, _, heq⟩ | ⟨_, _, heq⟩
      · rw [heq]
        exact .of_modify rfl rfl rfl fun session => ⟨rfl, rfl⟩
      · rw [heq]
        exact .of_erase rfl rfl rfl
      · rw [heq]
        exact .of_erase rfl rfl rfl
    · exact .refl p s
  | tunnelPeerConnected q relayed =>
    cases relayed with
    | true =>
      simp only [transition, onRelayedConnection]
      split
      · exact .of_eq rfl rfl rfl
      · exact .of_eq rfl rfl rfl
    | false => exact .of_erase rfl rfl rfl
  | dhtPeerLookupComplete q connected =>
    cases connected with
    | true =>
      simp only [transition]
      split
      · refine SameAddrs.routeConnectedPeer ?_ q _
        exact .of_eq rfl rfl rfl
      · exact .refl p s
    | false => exact .refl p s
  | dhtServiceResolved svc providers =>
    simp only [transition, onDhtServiceResolved]
    split
    · exact .refl p s
    split
    · exact .refl p s
    · obtain ⟨candidates, hstore⟩ := storeProviderCandidates_eq
        { s with pendingByService := s.pendingByService.erase svc } svc (List.map Prod.fst ‹_›)
      simp only [hstore]
      split
      · refine SameAddrs.routeConnectedPeer ?_ _ _
        exact .of_eq rfl rfl rfl
      · exact .of_eq rfl rfl rfl
  | holePunchAttemptFailed q attemptId reason =>
    exact s.sameAddrs_retryHolepunchAttempt p q attemptId
  | holePunchAttemptTimeout q attemptId => exact s.sameAddrs_retryHolepunchAttempt p q attemptId
  | phaseChanged old new => cases new <;> exact .refl p s
  | _ => exact .refl p s

/-! ## The six lists of a redial -/

/-- What is known of the addresses of one kind: the latest candidates and the addresses a session
keeps are shortlists, fresh candidates are the first of the latest ones, and a session keeps the
latest candidates unless there are none. -/
structure Covers (text : Multiaddr → String) (s : TunnelState) (p : PeerId)
    (predicate : Multiaddr → Bool) (limit : ℕ) (latest : List Multiaddr)
    (snapshot : Option (List Multiaddr)) : Prop where
  /-- The latest candidates are a shortlist. -/
  shortlist : Shortlist predicate limit latest
  /-- Fresh candidates are the first of the latest ones. -/
  fresh : ∀ env : Env, env.addrText = text → s.freshCandidates env p predicate limit <+: latest
  /-- A session keeps a shortlist, which has all the latest candidates. -/
  snapshot : ∀ kept ∈ snapshot, Shortlist predicate limit kept ∧ (latest = kept ∨ latest = [])

/-- What is known of the addresses of a peer, of both kinds. -/
structure RedialLists (text : Multiaddr → String) (s : TunnelState) (p : PeerId) : Prop where
  /-- The relay addresses. -/
  relay : s.Covers text p hasP2pCircuit maxRelayCandidates (s.addressOracle.getD p default).relayAddrs
    ((s.holepunchSessions.get? p).map HolePunchSession.relayRedialAddrs)
  /-- The direct candidates. -/
  direct : s.Covers text p isSupportedDirectCandidate maxDirectCandidates
    (s.addressOracle.getD p default).directAddrs
    ((s.holepunchSessions.get? p).map HolePunchSession.directSnapshot)

variable {text : Multiaddr → String} {predicate : Multiaddr → Bool} {limit : ℕ}
  {latest : List Multiaddr}

/-- Only the last-seen map of the peer matters for its fresh candidates. -/
theorem freshCandidates_congr (h : t.addressLastSeen.get? p = s.addressLastSeen.get? p) :
    t.freshCandidates env p predicate limit = s.freshCandidates env p predicate limit := by
  unfold freshCandidates
  rw [h]

/-- The same knowledge with fewer sessions. -/
theorem Covers.of_sub {snapshot snapshot' : Option (List Multiaddr)}
    (h : s.Covers text p predicate limit latest snapshot)
    (hlast : t.addressLastSeen.get? p = s.addressLastSeen.get? p)
    (hsub : ∀ kept ∈ snapshot', kept ∈ snapshot) :
    t.Covers text p predicate limit latest snapshot' where
  shortlist := h.shortlist
  fresh env henv := freshCandidates_congr hlast ▸ h.fresh env henv
  snapshot kept hkept := h.snapshot kept (hsub kept hkept)

/-- Steps that do not touch the addresses of a peer. -/
theorem RedialLists.of_same (h : s.RedialLists text p) (hsame : SameAddrs p s t) :
    t.RedialLists text p := by
  have horacle : t.addressOracle.getD p default = s.addressOracle.getD p default := by
    rw [FiniteMap.getD, hsame.oracle, FiniteMap.getD]
  constructor
  · rw [horacle]
    refine h.relay.of_sub hsame.lastSeen fun kept hkept => ?_
    obtain ⟨session', hsession', rfl⟩ := Option.map_eq_some_iff.mp hkept
    obtain ⟨session, hsession, hrelay, _⟩ := hsame.session session' hsession'
    exact Option.map_eq_some_iff.mpr ⟨session, hsession, hrelay.symm⟩
  · rw [horacle]
    refine h.direct.of_sub hsame.lastSeen fun kept hkept => ?_
    obtain ⟨session', hsession', rfl⟩ := Option.map_eq_some_iff.mp hkept
    obtain ⟨session, hsession, _, hdirect⟩ := hsame.session session' hsession'
    exact Option.map_eq_some_iff.mpr ⟨session, hsession, hdirect.symm⟩

/-- A new attempt keeps the latest candidates. -/
theorem RedialLists.begin (h : s.RedialLists text p) (attemptId : ℕ) :
    (s.beginHolepunchAttempt p attemptId).RedialLists text p := by
  have hget : (s.beginHolepunchAttempt p attemptId).holepunchSessions.get? p =
      some ⟨attemptId, .punching, (s.addressOracle.getD p default).relayAddrs,
        (s.addressOracle.getD p default).directAddrs, false⟩ := FiniteMap.get?_insert_self _ _ _
  constructor
  · rw [hget]
    refine ⟨h.relay.shortlist, h.relay.fresh, fun kept hkept => ?_⟩
    obtain rfl := Option.some.inj hkept
    exact ⟨h.relay.shortlist, Or.inl rfl⟩
  · rw [hget]
    refine ⟨h.direct.shortlist, h.direct.fresh, fun kept hkept => ?_⟩
    obtain rfl := Option.some.inj hkept
    exact ⟨h.direct.shortlist, Or.inl rfl⟩

/-- What was just recorded is fresh. -/
theorem isFresh_of_recordCandidates {lastSeen : FiniteMap Multiaddr Instant}
    {addrs : List Multiaddr} {a : Multiaddr} {seenAt : Instant}
    (h : (recordCandidates env lastSeen addrs).get? a = some seenAt) :
    isFresh env.now seenAt = true := (Option.filter_eq_some_iff.mp h).2

/-- The last-seen map of a peer after its addresses were recorded. -/
theorem get?_recordAddressCandidates (env : Env) (s : TunnelState) (p : PeerId)
    (addrs : List Multiaddr) :
    (s.recordAddressCandidates env p addrs).addressLastSeen.get? p =
      if (recordCandidates env (s.addressLastSeen.getD p ∅) addrs).isEmpty then none
      else some (recordCandidates env (s.addressLastSeen.getD p ∅) addrs) := by
  simp only [recordAddressCandidates]
  split
  · exact FiniteMap.get?_erase_self _ _
  · exact FiniteMap.get?_insert_self _ _ _

/-- The candidates that are fresh at any time are the first of those at the time of the last
identify message. -/
theorem freshCandidates_recorded (htext : Function.Injective text) (henv : env.addrText = text)
    (henv' : env'.addrText = text) (s : TunnelState) (p : PeerId) (addrs : List Multiaddr) :
    (s.recordAddressCandidates env p addrs).freshCandidates env' p predicate limit <+:
      (s.recordAddressCandidates env p addrs).freshCandidates env p predicate limit := by
  unfold freshCandidates
  rw [get?_recordAddressCandidates]
  split
  · exact List.prefix_rfl
  · rename_i lastSeen hget
    split at hget
    · cases hget
    · obtain rfl := Option.some.inj hget
      exact rankCandidates_initial (henv ▸ htext) (henv'.trans henv.symm)
        fun a seenAt hseen _ => isFresh_of_recordCandidates hseen

/-- Fresh candidates are a shortlist. -/
theorem shortlist_freshCandidates (env : Env) (s : TunnelState) (p : PeerId)
    (predicate : Multiaddr → Bool) (limit : ℕ) :
    Shortlist predicate limit (s.freshCandidates env p predicate limit) := by
  unfold freshCandidates
  split
  · exact shortlist_nil
  · exact shortlist_rankCandidates env _ predicate limit

/-- What a session keeps of one kind when new candidates are known. -/
def refreshedSnapshot (kept latest : List Multiaddr) : List Multiaddr :=
  if kept.isEmpty && !latest.isEmpty || !kept.isEmpty && !latest.isEmpty && kept != latest then latest
  else kept

/-- A session keeps the new candidates, unless there are none. -/
theorem refreshedSnapshot_cases (kept latest : List Multiaddr) :
    latest = refreshedSnapshot kept latest ∨ latest = [] ∧ refreshedSnapshot kept latest = kept := by
  unfold refreshedSnapshot
  by_cases hsame : kept = latest
  · subst hsame
    simp
  · cases kept <;> cases latest <;> simp_all

/-- New candidates of one kind, and what a session keeps of them. -/
theorem Covers.refreshed {snapshot : Option (List Multiaddr)} {addrs new : List Multiaddr}
    (h : s.Covers text p predicate limit latest snapshot) (htext : Function.Injective text)
    (henv : env.addrText = text)
    (ht : t.addressLastSeen = (s.recordAddressCandidates env p addrs).addressLastSeen)
    (hnew : (s.recordAddressCandidates env p addrs).freshCandidates env p predicate limit = new) :
    t.Covers text p predicate limit new (snapshot.map (refreshedSnapshot · new)) := by
  have hshort : Shortlist predicate limit new :=
    hnew ▸ shortlist_freshCandidates env _ p predicate limit
  refine ⟨hshort, fun env' henv' => ?_, fun kept hkept => ?_⟩
  · rw [freshCandidates_congr (congrArg (·.get? p) ht), ← hnew]
    exact freshCandidates_recorded htext henv henv' s p addrs
  · obtain ⟨old, hold, rfl⟩ := Option.map_eq_some_iff.mp hkept
    rcases refreshedSnapshot_cases old new with hlatest | ⟨hnone, hsame⟩
    · rw [← hlatest]
      exact ⟨hshort, Or.inl rfl⟩
    · rw [hsame]
      exact ⟨(h.snapshot old hold).1, Or.inr hnone⟩

/-- An identify message ranks the addresses anew and refreshes the session. -/
theorem RedialLists.identified (htext : Function.Injective text) (henv : env.addrText = text)
    (h : s.RedialLists text p) (addrs : List Multiaddr) :
    (s.updateAddressOracle env p addrs).RedialLists text p := by
  have horacle : (s.updateAddressOracle env p addrs).addressOracle.getD p default =
      { relayAddrs := (s.recordAddressCandidates env p addrs).freshCandidates env p hasP2pCircuit
          maxRelayCandidates
        directAddrs := (s.recordAddressCandidates env p addrs).freshCandidates env p
          isSupportedDirectCandidate maxDirectCandidates } := by
    rw [FiniteMap.getD, updateAddressOracle, FiniteMap.get?_insert_self]
    rfl
  have hsessions : (s.updateAddressOracle env p addrs).holepunchSessions.get? p =
      (s.holepunchSessions.get? p).map fun session =>
        session.refresh ((s.updateAddressOracle env p addrs).addressOracle.getD p default) := by
    rw [horacle, updateAddressOracle, FiniteMap.get?_modify, if_pos rfl]
    rfl
  constructor
  · have hrelay := h.relay.refreshed htext henv (t := s.updateAddressOracle env p addrs) rfl rfl
    rw [Option.map_map] at hrelay
    rw [hsessions, horacle, Option.map_map]
    exact hrelay
  · have hdirect := h.direct.refreshed htext henv (t := s.updateAddressOracle env p addrs) rfl rfl
    rw [Option.map_map] at hdirect
    rw [hsessions, horacle, Option.map_map]
    exact hdirect

/-- **Step.** A step with the same texts keeps the knowledge of all addresses. -/
theorem RedialLists.step (htext : Function.Injective text) (i : Env × Event)
    (henv : i.1.addrText = text) (h : s.RedialLists text p) :
    (machine.step s i).1.RedialLists text p := by
  obtain ⟨env, e⟩ := i
  by_cases hidentified : e.identifiedPeer = some p
  · cases e with
    | peerIdentified q addrs observed =>
      obtain rfl := Option.some.inj hidentified
      exact h.identified htext henv addrs
    | _ => cases hidentified
  by_cases hstart : e.startedAttempt = some p
  · cases e with
    | holePunchAttemptStarted q attemptId =>
      obtain rfl := Option.some.inj hstart
      exact h.begin attemptId
    | _ => cases hstart
  · exact h.of_same (sameAddrs_transition env s hstart hidentified)

/-- Nothing is known of the addresses of a peer at first. -/
theorem redialLists_configured (text : Multiaddr → String) (calls : List ConfigCall) (p : PeerId) :
    (configured calls).RedialLists text p := by
  obtain ⟨pending, byService, natMapping, heq⟩ := configured_frame calls
  rw [heq]
  constructor
  · exact ⟨shortlist_nil, fun _ _ => List.prefix_rfl, fun kept hkept => by cases hkept⟩
  · exact ⟨shortlist_nil, fun _ _ => List.prefix_rfl, fun kept hkept => by cases hkept⟩

/-- All candidates of a kind are among those the session keeps. -/
theorem Covers.subset {kept : List Multiaddr}
    (h : s.Covers text p predicate limit latest (some kept)) (henv : env.addrText = text) :
    latest ⊆ kept ∧ s.freshCandidates env p predicate limit ⊆ kept := by
  have hlatest : latest ⊆ kept := by
    rcases (h.snapshot kept rfl).2 with rfl | rfl
    · exact List.Subset.refl _
    · exact List.nil_subset kept
  exact ⟨hlatest, List.Subset.trans (h.fresh env henv).subset hlatest⟩

/-- **The six lists collapse.** A redial goes to the addresses the session keeps. -/
theorem RedialLists.prioritizedRedialAddrs_eq {session : HolePunchSession}
    (h : s.RedialLists text p) (henv : env.addrText = text)
    (hsession : s.holepunchSessions.get? p = some session) :
    s.prioritizedRedialAddrs env p session = session.directSnapshot ++ session.relayRedialAddrs := by
  obtain ⟨hrelay, hdirect⟩ := h
  rw [hsession] at hrelay hdirect
  obtain ⟨hdirectOracle, hdirectFresh⟩ := hdirect.subset henv
  obtain ⟨hrelayOracle, hrelayFresh⟩ := hrelay.subset henv
  have hdirects := (hdirect.snapshot _ rfl).1
  have hrelays := (hrelay.snapshot _ rfl).1
  have hdisjoint : ∀ a ∈ session.relayRedialAddrs, a ∉ session.directSnapshot := by
    intro a hrelay hdirect
    have hcircuit := hrelays.forall_mem a hrelay
    have hcandidate := hdirects.forall_mem a hdirect
    simp [isSupportedDirectCandidate, hcircuit] at hcandidate
  have hdedup : dedupAddrs (session.directSnapshot ++ (s.addressOracle.getD p default).directAddrs ++
        s.freshCandidates env p isSupportedDirectCandidate maxDirectCandidates ++
        session.relayRedialAddrs ++ (s.addressOracle.getD p default).relayAddrs ++
        s.freshCandidates env p hasP2pCircuit maxRelayCandidates) =
      session.directSnapshot ++ session.relayRedialAddrs := by
    simp only [dedupAddrs, dedupBy_append, List.nil_append, List.map_append, List.map_id]
    -- the first list of each kind is kept, and the two after it add nothing
    rw [dedupBy_id_eq_self hdirects.nodup fun a _ => List.not_mem_nil,
      dedupBy_id_eq_nil fun a ha => hdirectOracle ha,
      dedupBy_id_eq_nil fun a ha => List.mem_append_left _ (hdirectFresh ha),
      dedupBy_id_eq_self hrelays.nodup fun a ha hseen => ?_,
      dedupBy_id_eq_nil fun a ha => List.mem_append_right _ (hrelayOracle ha),
      dedupBy_id_eq_nil fun a ha => List.mem_append_left _ (List.mem_append_right _ (hrelayFresh ha)),
      List.append_nil, List.append_nil, List.append_nil, List.append_nil]
    rcases List.mem_append.mp hseen with hseen | hseen
    · rcases List.mem_append.mp hseen with hseen | hseen
      · exact hdisjoint a ha hseen
      · exact hdisjoint a ha (hdirectOracle hseen)
    · exact hdisjoint a ha (hdirectFresh hseen)
  have hlength :
      (session.directSnapshot ++ session.relayRedialAddrs).length ≤ maxRedialAddresses := by
    rw [List.length_append]
    exact Nat.add_le_add hdirects.length_le hrelays.length_le
  unfold prioritizedRedialAddrs
  dsimp only
  rw [hdedup, List.take_of_length_le hlength]

/-! ## Runs -/

/-- **Redials lose no relay.** In every run, at any time, the addresses of a redial are direct
candidates followed by relay addresses, each kind within its limit, without repetitions. Nothing is
cut off: every address of the session and of the latest candidates is among them. The clock of the
run may even be set back. -/
theorem redial_addrs_complete {text : Multiaddr → String} (htext : Function.Injective text)
    {calls : List ConfigCall} {inputs : List (Env × Event)}
    (hinputs : ∀ i ∈ inputs, i.1.addrText = text) {env : Env} (henv : env.addrText = text)
    {p : PeerId} {session : HolePunchSession}
    (hsession : (machine.after (configured calls) inputs).holepunchSessions.get? p = some session) :
    let s := machine.after (configured calls) inputs
    let oracle := s.addressOracle.getD p default
    let addrs := s.prioritizedRedialAddrs env p session
    addrs.Nodup ∧
      (∃ direct relay, addrs = direct ++ relay ∧
        Shortlist isSupportedDirectCandidate maxDirectCandidates direct ∧
        Shortlist hasP2pCircuit maxRelayCandidates relay) ∧
      ∀ a, a ∈ session.directSnapshot ∨ a ∈ oracle.directAddrs ∨
          a ∈ s.freshCandidates env p isSupportedDirectCandidate maxDirectCandidates ∨
          a ∈ session.relayRedialAddrs ∨ a ∈ oracle.relayAddrs ∨
          a ∈ s.freshCandidates env p hasP2pCircuit maxRelayCandidates → a ∈ addrs := by
  intro s oracle addrs
  have hrun : machine.Guarded (fun _ i => i.1.addrText = text) (configured calls) inputs :=
    .of_forall_mem fun i hi _ => hinputs i hi
  have hlists : s.RedialLists text p :=
    hrun.invariant (P := fun s => s.RedialLists text p) (redialLists_configured text calls p)
      fun s i h hi => h.step htext i hi
  have hcollapse : addrs = session.directSnapshot ++ session.relayRedialAddrs :=
    hlists.prioritizedRedialAddrs_eq henv hsession
  obtain ⟨hrelay, hdirect⟩ := hlists
  rw [hsession] at hrelay hdirect
  have hrelays := (hrelay.snapshot _ rfl).1
  have hdirects := (hdirect.snapshot _ rfl).1
  refine ⟨?_, ⟨_, _, hcollapse, hdirects, hrelays⟩, fun a ha => ?_⟩
  · rw [hcollapse]
    refine hdirects.nodup.append hrelays.nodup fun a hdirect hrelay => ?_
    have hcandidate := hdirects.forall_mem a hdirect
    simp [isSupportedDirectCandidate, hrelays.forall_mem a hrelay] at hcandidate
  · obtain ⟨hdirectOracle, hdirectFresh⟩ := hdirect.subset henv
    obtain ⟨hrelayOracle, hrelayFresh⟩ := hrelay.subset henv
    rw [hcollapse, List.mem_append]
    rcases ha with ha | ha | ha | ha | ha | ha
    · exact Or.inl ha
    · exact Or.inl (hdirectOracle ha)
    · exact Or.inl (hdirectFresh ha)
    · exact Or.inr ha
    · exact Or.inr (hrelayOracle ha)
    · exact Or.inr (hrelayFresh ha)

/-- A direct candidate. -/
def directSample : Multiaddr := ⟨[.ip4 ⟨203, 0, 113, 2⟩, .udp 4001, .quicV1]⟩

/-- A relay address. -/
def circuitSample : Multiaddr := ⟨[.p2pCircuit]⟩

/-- The texts of the sample addresses, and a code for each other address. -/
def sampleText (a : Multiaddr) : String :=
  if a = directSample then "/ip4/203.0.113.2/udp/4001/quic-v1"
  else if a = circuitSample then "/p2p-circuit"
  else String.ofList (List.replicate (Encodable.encode (a.protocols.map Protocol.code)) 'x')

theorem sampleText_injective : Function.Injective sampleText := by
  have hother (n : ℕ) {text : String} (htext : '/' ∈ text.toList) :
      String.ofList (List.replicate n 'x') ≠ text := by
    rintro rfl
    rw [String.toList_ofList] at htext
    exact absurd (List.eq_of_mem_replicate htext) (by decide)
  intro a b h
  unfold sampleText at h
  split_ifs at h with ha hb hb' ha' hb hb' hb hb'
  · rw [ha, hb]
  · exact absurd h (by decide)
  · exact absurd h.symm (hother _ (by decide))
  · exact absurd h (by decide)
  · rw [ha', hb']
  · exact absurd h.symm (hother _ (by decide))
  · exact absurd h (hother _ (by decide))
  · exact absurd h (hother _ (by decide))
  · have hlength := congrArg List.length (String.ofList_injective h)
    rw [List.length_replicate, List.length_replicate] at hlength
    have hcodes := Encodable.encode_injective hlength
    obtain ⟨as⟩ := a
    obtain ⟨bs⟩ := b
    exact congrArg Multiaddr.mk (List.map_injective_iff.mpr Protocol.code_injective hcodes)

/-- An attempt after an identify message with both samples, and another message later. -/
def identifiedAttempt : List (Env × Event) :=
  let env : Env := { Env.sorted with addrText := sampleText }
  [(env, .peerIdentified ⟨1⟩ [circuitSample, directSample] directSample),
    (env, .holePunchAttemptStarted ⟨1⟩ 1)]

/-- A minute later the candidates are not fresh any more, and the redial still has them. -/
theorem redial_addrs_complete_expired :
    let env : Env := { Env.sorted with addrText := sampleText, now := Duration.fromSecs 60 }
    let s := machine.after (configured [webTunnel]) identifiedAttempt
    s.freshCandidates env ⟨1⟩ hasP2pCircuit maxRelayCandidates = [] ∧
      circuitSample ∈ s.prioritizedRedialAddrs env ⟨1⟩
        ⟨1, .punching, [circuitSample], [directSample], false⟩ := by
  intro env s
  have hinputs : ∀ i ∈ identifiedAttempt, i.1.addrText = sampleText := by simp [identifiedAttempt]
  have henv : env.addrText = sampleText := rfl
  have hsession : (machine.after (configured [webTunnel]) identifiedAttempt).holepunchSessions.get?
      ⟨1⟩ = some ⟨1, .punching, [circuitSample], [directSample], false⟩ := by decide
  have hcomplete := redial_addrs_complete sampleText_injective hinputs henv hsession
  exact ⟨by decide, hcomplete.2.2 circuitSample
    (Or.inr (Or.inr (Or.inr (Or.inl (List.mem_singleton.mpr rfl)))))⟩

end TunnelState

end Punchgate
