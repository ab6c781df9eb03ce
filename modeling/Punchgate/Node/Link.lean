import Punchgate.Node.ConnectionState

/-!
# The connections of one peer

`PeerLink` is what the connection bookkeeping holds for one peer: its tracked
connections, and the ids of its active attempt and of its deadline. Every operation of
`ConnectionStateMachine` acts on the slice of one peer.
-/

namespace Punchgate

/-- What the connection bookkeeping holds for one peer. -/
@[ext] structure PeerLink where
  /-- The tracked relayed connections. -/
  relayed : Option (Finset ConnectionId)
  /-- The tracked direct connections. -/
  direct : Option (Finset ConnectionId)
  /-- The id of the active attempt. -/
  attempt : Option ℕ
  /-- The id of the attempt whose deadline is pending. -/
  deadline : Option ℕ
  deriving DecidableEq

/-- The slice of the bookkeeping that belongs to a peer. -/
def ConnectionStateMachine.link (c : ConnectionStateMachine) (p : PeerId) : PeerLink where
  relayed := c.relayedConnections.get? p
  direct := c.directConnections.get? p
  attempt := (c.holePunchAttempts.get? p).map HolePunchAttemptStats.attemptId
  deadline := (c.holePunchDeadlines.get? p).map HolePunchDeadline.attemptId

/-- Remove a connection from a set, and the set with its last connection. -/
def removeFrom (ids : Option (Finset ConnectionId)) (id : ConnectionId) :
    Option (Finset ConnectionId) :=
  (ids.map (·.erase id)).filter (· ≠ ∅)

namespace PeerLink

/-- The peer is reachable over a relay only. -/
def relayOnly (l : PeerLink) : Bool := l.relayed.isSome && !l.direct.isSome

/-- No connection is tracked. -/
def untracked (l : PeerLink) : Bool := !(l.relayed.isSome || l.direct.isSome)

/-- The link after a relayed connection was opened. -/
def openRelayed (l : PeerLink) (id : ConnectionId) : PeerLink :=
  { l with relayed := some (insert id (l.relayed.getD ∅)) }

/-- The link after a direct connection was opened. -/
def openDirect (l : PeerLink) (id : ConnectionId) : PeerLink where
  relayed := none
  direct := some (insert id (l.direct.getD ∅))
  attempt := none
  deadline := none

/-- The link after an attempt was started. -/
def start (l : PeerLink) (attemptId : ℕ) : PeerLink :=
  { l with attempt := some attemptId, deadline := some attemptId }

/-- An attempt would be started for the peer. -/
def Startable (l : PeerLink) : Prop := l.relayOnly = true ∧ l.attempt = none

/-- The link without a connection. -/
def drop (l : PeerLink) (id : ConnectionId) : PeerLink :=
  { l with relayed := removeFrom l.relayed id, direct := removeFrom l.direct id }

/-- The link after a connection was closed. -/
def close (l : PeerLink) (id : ConnectionId) (numEstablished : UInt32) : PeerLink :=
  if numEstablished = 0 ∧ (l.drop id).untracked = true then
    { l.drop id with attempt := none, deadline := none }
  else l.drop id

/-- The number of tracked connections. -/
def count (l : PeerLink) : ℕ := (l.relayed.getD ∅).card + (l.direct.getD ∅).card

/-- The link after its deadline has passed. -/
def expire (l : PeerLink) : PeerLink := { l with deadline := none }

end PeerLink

/-- Closing a connection changes the tracked ones as dropping it does. -/
theorem PeerLink.close_tracked (l : PeerLink) (id : ConnectionId) (num : UInt32) :
    (l.close id num).relayed = removeFrom l.relayed id ∧
      (l.close id num).direct = removeFrom l.direct id := by
  unfold close
  split <;> exact ⟨rfl, rfl⟩

/-- What is left of a set of connections. -/
theorem mem_getD_removeFrom {ids : Option (Finset ConnectionId)} {id id' : ConnectionId} :
    id' ∈ (removeFrom ids id).getD ∅ ↔ id' ∈ ids.getD ∅ ∧ id' ≠ id := by
  cases ids with
  | none => simp [removeFrom]
  | some ids =>
    by_cases hempty : ids.erase id = ∅
    · have hnone : removeFrom (some ids) id = none := by simp [removeFrom, Option.filter, hempty]
      have hnot : id' ∉ ids.erase id := by simp [hempty]
      rw [Finset.mem_erase] at hnot
      rw [hnone]
      simp only [Option.getD_none, Finset.notMem_empty, Option.getD_some, false_iff]
      exact fun h => hnot ⟨h.2, h.1⟩
    · have hsome : removeFrom (some ids) id = some (ids.erase id) := by
        simp [removeFrom, Option.filter, hempty]
      rw [hsome, Option.getD_some, Option.getD_some, Finset.mem_erase]
      exact and_comm

/-- An empty set of connections is not kept. -/
theorem removeFrom_ne_empty (ids : Option (Finset ConnectionId)) (id : ConnectionId) :
    removeFrom ids id ≠ some ∅ := by
  intro h
  simpa using (Option.filter_eq_some_iff.mp h).2

namespace ConnectionStateMachine

variable {env : Env} {c : ConnectionStateMachine} {p q : PeerId} {id : ConnectionId}

/-- The predicate of the bookkeeping is that of the link. -/
theorem peerIsRelayOnly_eq (c : ConnectionStateMachine) (p : PeerId) :
    c.peerIsRelayOnly p = (c.link p).relayOnly := rfl

/-- A peer with a direct connection, on links. -/
theorem hasDirectConnection_eq (c : ConnectionStateMachine) (p : PeerId) :
    c.hasDirectConnection p = (c.link p).direct.isSome := rfl

/-- An attempt is active for a peer, on links. -/
theorem contains_holePunchAttempts (c : ConnectionStateMachine) (p : PeerId) :
    c.holePunchAttempts.contains p = (c.link p).attempt.isSome := by
  simp [link, FiniteMap.contains]

/-- Links only depend on what the maps hold for the peer. -/
theorem link_congr {c d : ConnectionStateMachine}
    (hrelayed : d.relayedConnections.get? p = c.relayedConnections.get? p)
    (hdirect : d.directConnections.get? p = c.directConnections.get? p)
    (hattempt : d.holePunchAttempts.get? p = c.holePunchAttempts.get? p)
    (hdeadline : d.holePunchDeadlines.get? p = c.holePunchDeadlines.get? p) :
    d.link p = c.link p := by
  simp only [link, hrelayed, hdirect, hattempt, hdeadline]

/-- Links depend on the ids of attempts and deadlines only. -/
theorem link_congr' {c d : ConnectionStateMachine}
    (hrelayed : d.relayedConnections.get? p = c.relayedConnections.get? p)
    (hdirect : d.directConnections.get? p = c.directConnections.get? p)
    (hattempt : (d.holePunchAttempts.get? p).map HolePunchAttemptStats.attemptId =
      (c.holePunchAttempts.get? p).map HolePunchAttemptStats.attemptId)
    (hdeadline : d.holePunchDeadlines.get? p = c.holePunchDeadlines.get? p) :
    d.link p = c.link p := by
  simp only [link, hrelayed, hdirect, hattempt, hdeadline]

/-- Completing an attempt forgets it and its deadline. -/
theorem completeHolePunchAttempt_link (c : ConnectionStateMachine) (p q : PeerId) :
    (c.completeHolePunchAttempt q).link p =
      if p = q then { c.link p with attempt := none, deadline := none } else c.link p := by
  by_cases h : p = q
  · subst h
    rw [if_pos rfl]
    refine PeerLink.ext rfl rfl ?_ ?_
    · simp [link, completeHolePunchAttempt, removePendingHolePunchDialsForPeer]
    · simp [link, completeHolePunchAttempt, removePendingHolePunchDialsForPeer]
  · rw [if_neg h]
    exact link_congr rfl rfl (FiniteMap.get?_erase_of_ne _ h) (FiniteMap.get?_erase_of_ne _ h)

/-- A new connection is tracked under its peer; a direct one completes the attempt and
takes the relayed ones out of the books. -/
theorem onConnectionEstablished_link (env : Env) (c : ConnectionStateMachine) (p q : PeerId)
    (id : ConnectionId) (relayed : Bool) :
    (c.onConnectionEstablished env q id relayed).1.link p =
      if p = q then
        if relayed = true then (c.link p).openRelayed id else (c.link p).openDirect id
      else c.link p := by
  by_cases h : p = q
  · subst h
    rw [if_pos rfl]
    cases relayed with
    | true =>
      refine PeerLink.ext ?_ rfl rfl rfl
      simp [link, onConnectionEstablished, PeerLink.openRelayed, FiniteMap.getD]
    | false =>
      refine PeerLink.ext ?_ ?_ ?_ ?_ <;>
        simp [link, onConnectionEstablished, completeHolePunchAttempt,
          removePendingHolePunchDialsForPeer, PeerLink.openDirect, FiniteMap.getD]
  · rw [if_neg h]
    cases relayed with
    | true => exact link_congr (FiniteMap.get?_insert_of_ne _ _ h) rfl rfl rfl
    | false =>
      exact link_congr (FiniteMap.get?_erase_of_ne _ h) (FiniteMap.get?_insert_of_ne _ _ h)
        (FiniteMap.get?_erase_of_ne _ h) (FiniteMap.get?_erase_of_ne _ h)

/-- An attempt is started exactly for a relayed-only peer without an active one. -/
theorem startHolePunchAttempt_cases (env : Env) (c : ConnectionStateMachine) (q : PeerId)
    (timeout : Duration) :
    (¬(c.link q).Startable ∧ c.startHolePunchAttempt env q timeout = (c, none)) ∨
    (c.link q).Startable ∧ ∃ d attemptId, c.startHolePunchAttempt env q timeout =
      (d, some attemptId) ∧
      ∀ p, d.link p = if p = q then (c.link p).start attemptId else c.link p := by
  unfold startHolePunchAttempt
  rw [peerIsRelayOnly_eq, contains_holePunchAttempts]
  cases hrelay : (c.link q).relayOnly with
  | false =>
    refine Or.inl ⟨fun h => ?_, rfl⟩
    rw [h.1] at hrelay
    cases hrelay
  | true =>
    cases hattempt : (c.link q).attempt with
    | some a =>
      refine Or.inl ⟨fun h => ?_, rfl⟩
      rw [h.2] at hattempt
      cases hattempt
    | none =>
      refine Or.inr ⟨⟨hrelay, hattempt⟩, _, _, rfl, fun p => ?_⟩
      by_cases h : p = q
      · subst h
        rw [if_pos rfl]
        refine PeerLink.ext rfl rfl ?_ ?_
        · simp [link, PeerLink.start, HolePunchAttemptStats.new]
        · simp [link, PeerLink.start]
      · rw [if_neg h]
        exact link_congr rfl rfl (FiniteMap.get?_insert_of_ne _ _ h)
          (FiniteMap.get?_insert_of_ne _ _ h)

/-- Removing a connection id from a map acts on the set of its peer. -/
theorem get?_removeConnectionId (m : FiniteMap PeerId (Finset ConnectionId)) (p q : PeerId)
    (id : ConnectionId) :
    (removeConnectionId m q id).1.get? p =
      if p = q then removeFrom (m.get? p) id else m.get? p := by
  unfold removeConnectionId removeFrom
  cases hget : m.get? q with
  | none =>
    by_cases h : p = q
    · subst h
      simp [hget]
    · simp [h]
  | some ids =>
    by_cases hempty : ids.erase id = ∅
    · simp only [hempty, if_true]
      by_cases h : p = q
      · subst h
        simp [hget, hempty, Option.filter]
      · simp [h]
    · simp only [hempty, if_false]
      by_cases h : p = q
      · subst h
        simp [hget, hempty, Option.filter]
      · simp [h]

/-- The bookkeeping without a connection, before its peer is found disconnected. -/
def dropConnection (c : ConnectionStateMachine) (q : PeerId) (id : ConnectionId) :
    ConnectionStateMachine :=
  { c with
    pendingHolePunchDials := c.pendingHolePunchDials.erase id
    relayedConnections := (removeConnectionId c.relayedConnections q id).1
    directConnections := (removeConnectionId c.directConnections q id).1 }

/-- Dropping a connection acts on the link of its peer. -/
theorem dropConnection_link (c : ConnectionStateMachine) (p q : PeerId) (id : ConnectionId) :
    (c.dropConnection q id).link p = if p = q then (c.link p).drop id else c.link p := by
  have hrelayed := get?_removeConnectionId c.relayedConnections p q id
  have hdirect := get?_removeConnectionId c.directConnections p q id
  by_cases h : p = q
  · rw [if_pos h]
    rw [if_pos h] at hrelayed hdirect
    exact PeerLink.ext hrelayed hdirect rfl rfl
  · rw [if_neg h]
    rw [if_neg h] at hrelayed hdirect
    exact link_congr hrelayed hdirect rfl rfl

/-- A peer is reported as fully disconnected when the swarm counts no connection and none
is tracked any more. -/
theorem peerFullyDisconnected_eq (c : ConnectionStateMachine) (q : PeerId) (id : ConnectionId)
    (numEstablished : UInt32) :
    (c.onConnectionClosed q id numEstablished).2.peerFullyDisconnected =
      (decide (numEstablished = 0) && ((c.link q).drop id).untracked) := by
  have hlink := dropConnection_link c q q id
  rw [if_pos rfl] at hlink
  rw [← hlink]
  rfl

/-- A closed connection is dropped; the attempt ends with the last one of its peer. -/
theorem onConnectionClosed_eq (c : ConnectionStateMachine) (q : PeerId) (id : ConnectionId)
    (numEstablished : UInt32) :
    (c.onConnectionClosed q id numEstablished).1 =
      if (c.onConnectionClosed q id numEstablished).2.peerFullyDisconnected = true then
        { (c.dropConnection q id).completeHolePunchAttempt q with
          relayedConnections := (c.dropConnection q id).relayedConnections.erase q
          directConnections := (c.dropConnection q id).directConnections.erase q }
      else c.dropConnection q id := rfl

/-- A closed connection leaves the books of its peer; the attempt ends with the last one. -/
theorem onConnectionClosed_link (c : ConnectionStateMachine) (p q : PeerId) (id : ConnectionId)
    (numEstablished : UInt32) :
    (c.onConnectionClosed q id numEstablished).1.link p =
      if p = q then (c.link p).close id numEstablished else c.link p := by
  have hdrop := dropConnection_link c p q id
  have hfully : (c.onConnectionClosed q id numEstablished).2.peerFullyDisconnected = true ↔
      numEstablished = 0 ∧ ((c.link q).drop id).untracked = true := by
    rw [peerFullyDisconnected_eq, Bool.and_eq_true, decide_eq_true_eq]
  by_cases hclosed : numEstablished = 0 ∧ ((c.link q).drop id).untracked = true
  · rw [onConnectionClosed_eq, if_pos (hfully.mpr hclosed)]
    have huntracked := hclosed.2
    simp only [PeerLink.untracked, Bool.not_eq_true', Bool.or_eq_false_iff,
      Option.isSome_eq_false_iff, Option.isNone_iff_eq_none] at huntracked
    by_cases h : p = q
    · subst h
      rw [if_pos rfl, PeerLink.close, if_pos hclosed]
      have hcomplete := completeHolePunchAttempt_link (c.dropConnection p id) p p
      rw [if_pos rfl] at hcomplete
      have hattempt := congrArg PeerLink.attempt hcomplete
      have hdeadline := congrArg PeerLink.deadline hcomplete
      refine PeerLink.ext ?_ ?_ hattempt hdeadline
      · exact (FiniteMap.get?_erase_self _ _).trans huntracked.1.symm
      · exact (FiniteMap.get?_erase_self _ _).trans huntracked.2.symm
    · rw [if_neg h]
      rw [if_neg h] at hdrop
      rw [← hdrop]
      exact link_congr (FiniteMap.get?_erase_of_ne _ h) (FiniteMap.get?_erase_of_ne _ h)
        (FiniteMap.get?_erase_of_ne _ h) (FiniteMap.get?_erase_of_ne _ h)
  · rw [onConnectionClosed_eq, if_neg fun h => hclosed (hfully.mp h), hdrop]
    by_cases h : p = q
    · subst h
      rw [if_pos rfl, if_pos rfl, PeerLink.close, if_neg hclosed]
    · rw [if_neg h, if_neg h]

/-- Counting a dial changes no link. -/
theorem onDialing_link (c : ConnectionStateMachine) (p q : PeerId) (id : ConnectionId) :
    (c.onDialing q id).1.link p = c.link p := by
  unfold onDialing
  split
  · rfl
  · split
    · rename_i stats hstats
      refine link_congr' rfl rfl ?_ rfl
      by_cases h : p = q
      · subst h
        simp [hstats]
      · simp [h]
    · rfl

/-- Counting a failed dial changes no link. -/
theorem onOutgoingConnectionError_link (c : ConnectionStateMachine) (p : PeerId)
    (peer : Option PeerId) (id : ConnectionId) (text : String) :
    (c.onOutgoingConnectionError peer id text).1.link p = c.link p := by
  have hfail (q : PeerId) (attemptId : ℕ) :
      (c.failTrackedDial q attemptId text).1.link p = c.link p := by
    unfold failTrackedDial
    split
    · rename_i stats hstats
      split
      · refine link_congr' rfl rfl ?_ rfl
        by_cases h : p = q
        · subst h
          simp [hstats]
        · simp [h]
      · rfl
    · rfl
  unfold onOutgoingConnectionError
  dsimp only
  split
  · split
    · exact hfail _ _
    · rfl
  · split <;> rfl

/-- The due timeouts are those of the pending deadlines. -/
theorem deadline_of_mem_due {now : Instant} {attemptId : ℕ}
    (h : (p, attemptId) ∈ (c.takeDueHolePunchTimeouts env now).2) :
    (c.link p).deadline = some attemptId := by
  obtain ⟨e, he, heq⟩ := List.mem_map.mp h
  cases heq
  have hget := FiniteMap.mem_entries.mp (List.mem_of_mem_filter he)
  simp [link, hget]

/-- Taking the due timeouts removes their deadlines and nothing else. -/
theorem takeDueHolePunchTimeouts_link (env : Env) (c : ConnectionStateMachine) (now : Instant)
    (p : PeerId) :
    (c.takeDueHolePunchTimeouts env now).1.link p =
      if p ∈ (c.takeDueHolePunchTimeouts env now).2.map Prod.fst then (c.link p).expire
      else c.link p := by
  have hdeadlines := c.holePunchDeadlines.get?_foldl_erase
    (c.takeDueHolePunchTimeouts env now).2 p
  by_cases h : p ∈ (c.takeDueHolePunchTimeouts env now).2.map Prod.fst
  · rw [if_pos h] at hdeadlines ⊢
    exact PeerLink.ext rfl rfl rfl (congrArg (Option.map HolePunchDeadline.attemptId) hdeadlines)
  · rw [if_neg h] at hdeadlines ⊢
    exact link_congr rfl rfl rfl hdeadlines

/-- The active attempt shows in the link. -/
theorem activeAttemptStats_map (c : ConnectionStateMachine) (p : PeerId) :
    (c.activeAttemptStats p).map HolePunchAttemptStats.attemptId = (c.link p).attempt := rfl

end ConnectionStateMachine

end Punchgate
