import Punchgate.Node.Link

/-!
# Attempts and dials

A peer has at most one hole-punch attempt at a time. Deadlines and counted dials carry the id of
the attempt they were made for, and are forgotten together with it, so a failed dial is never
charged to a later attempt. The invariant behind this spans all five maps of the bookkeeping.
-/

namespace Punchgate

namespace ConnectionStateMachine

/-- The dials in flight that count for the attempt of a peer. -/
def dialsInFlight (c : ConnectionStateMachine) (p : PeerId) : ℕ :=
  c.pendingHolePunchDials.total fun _ dial => if dial.1 = p then 1 else 0

/-- The books of attempts, deadlines and dials agree. -/
structure Bookkept (c : ConnectionStateMachine) : Prop where
  /-- A deadline belongs to the active attempt of its peer. -/
  deadlines : ∀ p entry, c.holePunchDeadlines.get? p = some entry →
    ∃ stats, c.holePunchAttempts.get? p = some stats ∧ stats.attemptId = entry.attemptId
  /-- The active attempt is the one started last. -/
  latest : ∀ p stats, c.holePunchAttempts.get? p = some stats →
    c.holePunchAttemptSeq.get? p = some stats.attemptId
  /-- A counted dial in flight belongs to the active attempt of its peer. -/
  dials : ∀ id p k, c.pendingHolePunchDials.get? id = some (p, k) →
    ∃ stats, c.holePunchAttempts.get? p = some stats ∧ stats.attemptId = k
  /-- Failed dials and those in flight were all counted as started, as far as the counter goes. -/
  failures : ∀ p stats, c.holePunchAttempts.get? p = some stats → stats.dialsFailed ≤ u32Max ∧
    (stats.dialsFailed + c.dialsInFlight p ≤ stats.dialsStarted ∨ stats.dialsStarted = u32Max)
  /-- A peer with an active attempt has no direct connection. -/
  direct : ∀ p stats, c.holePunchAttempts.get? p = some stats →
    c.directConnections.get? p = none

/-- No attempt of a peer is active, and nothing is left of an earlier one. -/
structure Ended (c : ConnectionStateMachine) (p : PeerId) : Prop where
  /-- No attempt is active. -/
  attempt : c.holePunchAttempts.get? p = none
  /-- No deadline is pending. -/
  deadline : c.holePunchDeadlines.get? p = none
  /-- No dial counts for an attempt. -/
  dials : ∀ id k, c.pendingHolePunchDials.get? id ≠ some (p, k)

variable {env : Env} {c d : ConnectionStateMachine} {p q : PeerId}

/-- A peer without an attempt has no counted dials in flight. -/
theorem Bookkept.dialsInFlight_eq_zero (h : Bookkept c) (hp : c.holePunchAttempts.get? p = none) :
    c.dialsInFlight p = 0 := by
  refine FiniteMap.total_eq_zero fun id dial hdial => if_neg ?_
  rintro rfl
  obtain ⟨stats, hstats, _⟩ := h.dials id dial.1 dial.2 hdial
  rw [hp] at hstats
  cases hstats

/-- Forgetting deadlines and dials, or whole attempts, keeps the books in agreement. -/
theorem Bookkept.shrink (h : Bookkept c)
    (hattempts : ∀ p, d.holePunchAttempts.get? p = c.holePunchAttempts.get? p ∨ d.Ended p)
    (hseq : d.holePunchAttemptSeq = c.holePunchAttemptSeq)
    (hdeadlines : ∀ p entry, d.holePunchDeadlines.get? p = some entry →
      c.holePunchDeadlines.get? p = some entry)
    (hdials : ∀ id dial, d.pendingHolePunchDials.get? id = some dial →
      c.pendingHolePunchDials.get? id = some dial)
    (hdirect : ∀ p, d.Ended p ∨ (c.directConnections.get? p = none →
      d.directConnections.get? p = none)) : Bookkept d := by
  have hkept {p : PeerId} {stats : HolePunchAttemptStats}
      (hstats : d.holePunchAttempts.get? p = some stats) :
      c.holePunchAttempts.get? p = some stats := by
    rcases hattempts p with heq | hended
    · rw [← heq]
      exact hstats
    · rw [hended.attempt] at hstats
      cases hstats
  constructor
  case deadlines =>
    intro p entry hentry
    obtain ⟨stats, hstats, hid⟩ := h.deadlines p entry (hdeadlines p entry hentry)
    rcases hattempts p with heq | hended
    · exact ⟨stats, heq.trans hstats, hid⟩
    · rw [hended.deadline] at hentry
      cases hentry
  case latest =>
    intro p stats hstats
    rw [hseq]
    exact h.latest p stats (hkept hstats)
  case dials =>
    intro id p k hdial
    obtain ⟨stats, hstats, hid⟩ := h.dials id p k (hdials id _ hdial)
    rcases hattempts p with heq | hended
    · exact ⟨stats, heq.trans hstats, hid⟩
    · exact absurd hdial (hended.dials id k)
  case failures =>
    intro p stats hstats
    obtain ⟨hmax, hcount⟩ := h.failures p stats (hkept hstats)
    have hfewer : d.dialsInFlight p ≤ c.dialsInFlight p := 
      FiniteMap.total_le_of_get? fun id dial hdial _ => hdials id dial hdial
    exact ⟨hmax, by omega⟩
  case direct =>
    intro p stats hstats
    rcases hdirect p with hended | hnone
    · rw [hended.attempt] at hstats
      cases hstats
    · exact hnone (h.direct p stats (hkept hstats))

/-- Changing what the books hold for one peer keeps them in agreement if they agree on that
peer afterwards. -/
theorem Bookkept.update (h : Bookkept c) {stats : HolePunchAttemptStats}
    (hstats : d.holePunchAttempts.get? q = some stats)
    (hattempts : ∀ p, p ≠ q → d.holePunchAttempts.get? p = c.holePunchAttempts.get? p)
    (hseq : ∀ p, p ≠ q → d.holePunchAttemptSeq.get? p = c.holePunchAttemptSeq.get? p)
    (hdeadlines : ∀ p, p ≠ q → d.holePunchDeadlines.get? p = c.holePunchDeadlines.get? p)
    (hdials : ∀ id p k, p ≠ q → d.pendingHolePunchDials.get? id = some (p, k) →
      c.pendingHolePunchDials.get? id = some (p, k))
    (hconnections : d.directConnections = c.directConnections)
    (hlatest : d.holePunchAttemptSeq.get? q = some stats.attemptId)
    (hdeadline : ∀ entry, d.holePunchDeadlines.get? q = some entry →
      stats.attemptId = entry.attemptId)
    (hdial : ∀ id k, d.pendingHolePunchDials.get? id = some (q, k) → stats.attemptId = k)
    (hfailures : stats.dialsFailed ≤ u32Max ∧
      (stats.dialsFailed + d.dialsInFlight q ≤ stats.dialsStarted ∨ stats.dialsStarted = u32Max))
    (hdirect : c.directConnections.get? q = none) : Bookkept d := by
  constructor
  case deadlines =>
    intro p entry hentry
    by_cases hp : p = q
    · subst hp
      exact ⟨stats, hstats, hdeadline entry hentry⟩
    · rw [hattempts p hp]
      exact h.deadlines p entry ((hdeadlines p hp).symm.trans hentry)
  case latest =>
    intro p stats' hstats'
    by_cases hp : p = q
    · subst hp
      rw [← Option.some.inj (hstats.symm.trans hstats')]
      exact hlatest
    · rw [hseq p hp]
      exact h.latest p stats' ((hattempts p hp).symm.trans hstats')
  case dials =>
    intro id p k hget
    by_cases hp : p = q
    · subst hp
      exact ⟨stats, hstats, hdial id k hget⟩
    · rw [hattempts p hp]
      exact h.dials id p k (hdials id p k hp hget)
  case failures =>
    intro p stats' hstats'
    by_cases hp : p = q
    · subst hp
      rw [← Option.some.inj (hstats.symm.trans hstats')]
      exact hfailures
    · obtain ⟨hmax, hcount⟩ := h.failures p stats' ((hattempts p hp).symm.trans hstats')
      have hfewer : d.dialsInFlight p ≤ c.dialsInFlight p := by
        refine FiniteMap.total_le_of_get? fun id dial hget hcounted => ?_
        have hdialed : dial.1 = p := by
          by_contra hne
          exact hcounted (if_neg hne)
        exact hdials id dial.1 dial.2 (hdialed ▸ hp) hget
      exact ⟨hmax, by omega⟩
  case direct =>
    intro p stats' hstats'
    rw [hconnections]
    by_cases hp : p = q
    · subst hp
      exact hdirect
    · exact h.direct p stats' ((hattempts p hp).symm.trans hstats')

/-! ## The calls one by one -/

/-- Completing an attempt leaves nothing of it. -/
theorem completeHolePunchAttempt_ended (c : ConnectionStateMachine) (p : PeerId) :
    (c.completeHolePunchAttempt p).Ended p := by
  refine ⟨FiniteMap.get?_erase_self _ _, FiniteMap.get?_erase_self _ _, fun id k hdial => ?_⟩
  obtain ⟨_, hne⟩ := Option.filter_eq_some_iff.mp hdial
  simp at hne

/-- Completing an attempt keeps the books in agreement. -/
theorem Bookkept.complete (h : Bookkept c) (q : PeerId) :
    Bookkept (c.completeHolePunchAttempt q) := by
  refine h.shrink (fun p => ?_) rfl (fun p entry hentry => ?_) (fun id dial hdial => ?_)
    fun p => Or.inr fun hnone => hnone
  · by_cases hp : p = q
    · subst hp
      exact Or.inr (c.completeHolePunchAttempt_ended p)
    · exact Or.inl (FiniteMap.get?_erase_of_ne _ hp)
  · by_cases hp : p = q
    · subst hp
      rw [(c.completeHolePunchAttempt_ended p).deadline] at hentry
      cases hentry
    · rw [← hentry]
      exact (FiniteMap.get?_erase_of_ne _ hp).symm
  · exact (Option.filter_eq_some_iff.mp hdial).1

/-- Forgetting a dial keeps the books in agreement, whatever happens to the relayed
connections. -/
theorem Bookkept.forget (h : Bookkept c) (id : ConnectionId)
    (relayed : FiniteMap PeerId (Finset ConnectionId)) :
    Bookkept { c with
      pendingHolePunchDials := c.pendingHolePunchDials.erase id
      relayedConnections := relayed } := by
  refine h.shrink (fun p => Or.inl rfl) rfl (fun p entry hentry => hentry) (fun id' dial hdial => ?_)
    fun p => Or.inr fun hnone => hnone
  by_cases hid : id' = id
  · subst hid
    rw [FiniteMap.get?_erase_self] at hdial
    cases hdial
  · rw [← hdial]
    exact (FiniteMap.get?_erase_of_ne _ hid).symm

/-- A new connection keeps the books in agreement: a direct one ends the attempt. -/
theorem Bookkept.established (h : Bookkept c) (env : Env) (q : PeerId) (id : ConnectionId)
    (relayed : Bool) : Bookkept (c.onConnectionEstablished env q id relayed).1 := by
  cases relayed with
  | true => exact h.forget id _
  | false =>
    have hcomplete := (h.forget id (c.relayedConnections.erase q)).complete q
    refine hcomplete.shrink (fun p => Or.inl rfl) rfl (fun p entry hentry => hentry)
      (fun id' dial hdial => hdial) fun p => ?_
    by_cases hp : p = q
    · subst hp
      left
      have hended := completeHolePunchAttempt_ended { c with
        pendingHolePunchDials := c.pendingHolePunchDials.erase id
        relayedConnections := c.relayedConnections.erase p } p
      exact ⟨hended.attempt, hended.deadline, hended.dials⟩
    · right
      intro hnone
      exact (FiniteMap.get?_insert_of_ne _ _ hp).trans hnone

/-- A closed connection keeps the books in agreement: the last one ends the attempt. -/
theorem Bookkept.closed (h : Bookkept c) (q : PeerId) (id : ConnectionId)
    (numEstablished : UInt32) : Bookkept (c.onConnectionClosed q id numEstablished).1 := by
  have hdrop : Bookkept (c.dropConnection q id) := by
    refine (h.forget id (removeConnectionId c.relayedConnections q id).1).shrink
      (fun p => Or.inl rfl) rfl (fun p entry hentry => hentry) (fun id' dial hdial => hdial)
      fun p => Or.inr fun hnone => ?_
    have hremoved := get?_removeConnectionId c.directConnections p q id
    refine hremoved.trans ?_
    split
    · rw [show c.directConnections.get? p = none from hnone]
      rfl
    · exact hnone
  rw [onConnectionClosed_eq]
  split
  · refine (hdrop.complete q).shrink (fun p => Or.inl rfl) rfl (fun p entry hentry => hentry)
      (fun id' dial hdial => hdial) fun p => Or.inr fun hnone => ?_
    refine (FiniteMap.get?_erase _ _ _).trans ?_
    split
    · rfl
    · exact hnone
  · exact hdrop

/-- Taking the due timeouts drops deadlines only. -/
theorem Bookkept.takeDue (h : Bookkept c) (env : Env) (now : Instant) :
    Bookkept (c.takeDueHolePunchTimeouts env now).1 := by
  refine h.shrink (fun p => Or.inl rfl) rfl (fun p entry hentry => ?_) (fun id dial hdial => hdial)
    fun p => Or.inr fun hnone => hnone
  have hleft := c.holePunchDeadlines.get?_foldl_erase (c.takeDueHolePunchTimeouts env now).2 p
  have hentry' := hleft.symm.trans hentry
  split at hentry'
  · cases hentry'
  · exact hentry'

/-- What a call to start an attempt comes to: nothing, or an attempt with a new id for a peer
that has neither an attempt nor a direct connection. -/
theorem startHolePunchAttempt_eq (env : Env) (c : ConnectionStateMachine) (q : PeerId)
    (timeout : Duration) :
    c.startHolePunchAttempt env q timeout = (c, none) ∨
    c.holePunchAttempts.get? q = none ∧ c.directConnections.get? q = none ∧
      c.startHolePunchAttempt env q timeout =
        ({ c with
          holePunchAttemptSeq := c.holePunchAttemptSeq.insert q (c.nextHolePunchAttemptId q)
          holePunchAttempts :=
            c.holePunchAttempts.insert q (.new env (c.nextHolePunchAttemptId q))
          holePunchDeadlines := c.holePunchDeadlines.insert q
            ⟨c.nextHolePunchAttemptId q, env.now + timeout⟩ },
          some (c.nextHolePunchAttemptId q)) := by
  unfold startHolePunchAttempt
  split
  · exact Or.inl rfl
  · rename_i hstart
    simp only [Bool.or_eq_true, Bool.not_eq_true', not_or, Bool.not_eq_false, Bool.not_eq_true,
      FiniteMap.contains_eq_false] at hstart
    obtain ⟨hrelay, hattempt⟩ := hstart
    unfold peerIsRelayOnly at hrelay
    simp only [Bool.and_eq_true, Bool.not_eq_true'] at hrelay
    exact Or.inr ⟨hattempt, FiniteMap.contains_eq_false.mp hrelay.2, rfl⟩

/-- Starting an attempt keeps the books in agreement. -/
theorem Bookkept.start (h : Bookkept c) (env : Env) (q : PeerId) (timeout : Duration) :
    Bookkept (c.startHolePunchAttempt env q timeout).1 := by
  rcases c.startHolePunchAttempt_eq env q timeout with heq | ⟨hattempt, hdirect, heq⟩
  · rw [heq]
    exact h
  · rw [heq]
    refine h.update (FiniteMap.get?_insert_self _ _ _)
      (fun p hp => FiniteMap.get?_insert_of_ne _ _ hp)
      (fun p hp => FiniteMap.get?_insert_of_ne _ _ hp)
      (fun p hp => FiniteMap.get?_insert_of_ne _ _ hp) (fun id p k _ hdial => hdial) rfl
      (FiniteMap.get?_insert_self _ _ _) (fun entry hentry => ?_) (fun id k hdial => ?_)
      ⟨Nat.zero_le _, Or.inl ?_⟩ hdirect
    · rw [← Option.some.inj ((FiniteMap.get?_insert_self _ _ _).symm.trans hentry)]
      rfl
    · obtain ⟨stats, hstats, _⟩ := h.dials id q k hdial
      rw [hattempt] at hstats
      cases hstats
    · exact (Nat.zero_add _).trans_le (h.dialsInFlight_eq_zero hattempt).le

/-- Counting a dial keeps the books in agreement. -/
theorem Bookkept.dialing (h : Bookkept c) (q : PeerId) (id : ConnectionId) :
    Bookkept (c.onDialing q id).1 := by
  unfold onDialing
  split
  · exact h
  · split
    · rename_i stats hstats
      obtain ⟨hmax, hcount⟩ := h.failures q stats hstats
      have hid {k : ℕ} (hk : ∃ stats', c.holePunchAttempts.get? q = some stats' ∧
          stats'.attemptId = k) : stats.attemptId = k := by
        obtain ⟨stats', hstats', hid⟩ := hk
        rw [← hid, Option.some.inj (hstats.symm.trans hstats')]
      refine h.update (FiniteMap.get?_insert_self _ _ _)
        (fun p hp => FiniteMap.get?_insert_of_ne _ _ hp) (fun p _ => rfl) (fun p _ => rfl)
        (fun id' p k hp hdial => ?_) rfl (h.latest q stats hstats)
        (fun entry hentry => hid (h.deadlines q entry hentry)) (fun id' k hdial => ?_)
        ⟨hmax, ?_⟩ (h.direct q stats hstats)
      · by_cases hid' : id' = id
        · subst hid'
          cases (FiniteMap.get?_insert_self _ _ _).symm.trans hdial
          exact absurd rfl hp
        · exact (FiniteMap.get?_insert_of_ne _ _ hid').symm.trans hdial
      · by_cases hid' : id' = id
        · subst hid'
          cases (FiniteMap.get?_insert_self _ _ _).symm.trans hdial
          rfl
        · exact hid (h.dials id' q k ((FiniteMap.get?_insert_of_ne _ _ hid').symm.trans hdial))
      · have herase := c.pendingHolePunchDials.total_erase id
          fun _ dial => if dial.1 = q then 1 else 0
        have hinsert := c.pendingHolePunchDials.total_insert id (q, stats.attemptId)
          fun _ dial => if dial.1 = q then 1 else 0
        simp only [if_true] at hinsert
        unfold dialsInFlight saturatingAdd u32Max at *
        dsimp only at *
        rw [hinsert]
        omega
    · exact h

/-- Counting a failed dial keeps the books in agreement. -/
theorem Bookkept.outgoingError (h : Bookkept c) (peer : Option PeerId) (id : ConnectionId)
    (text : String) : Bookkept (c.onOutgoingConnectionError peer id text).1 := by
  have hforget : Bookkept { c with pendingHolePunchDials := c.pendingHolePunchDials.erase id } :=
    h.forget id c.relayedConnections
  unfold onOutgoingConnectionError
  dsimp only
  split
  · rename_i q k hdial
    split
    · unfold failTrackedDial
      split
      · rename_i stats hstats
        split
        · obtain ⟨hmax, hcount⟩ := h.failures q stats hstats
          refine hforget.update (FiniteMap.get?_insert_self _ _ _)
            (fun p hp => FiniteMap.get?_insert_of_ne _ _ hp) (fun p _ => rfl) (fun p _ => rfl)
            (fun id' p k' _ hget => hget) rfl (h.latest q stats hstats) (fun entry hentry => ?_)
            (fun id' k' hget => ?_) ⟨?_, ?_⟩ (h.direct q stats hstats)
          · obtain ⟨stats', hstats', hid⟩ := h.deadlines q entry hentry
            rw [← hid, ← Option.some.inj (hstats.symm.trans hstats')]
          · obtain ⟨stats', hstats', hid⟩ := hforget.dials id' q k' hget
            rw [← hid, ← Option.some.inj (hstats.symm.trans hstats')]
          · exact Nat.min_le_right _ _
          · have herase := c.pendingHolePunchDials.total_erase_of_get? hdial
              fun _ dial => if dial.1 = q then 1 else 0
            simp only [if_true] at herase
            unfold dialsInFlight saturatingAdd u32Max at *
            dsimp only at *
            omega
        · exact hforget
      · exact hforget
    · exact hforget
  · split <;> exact hforget

/-- Every call keeps the books in agreement. -/
theorem Bookkept.call (h : Bookkept c) (env : Env) (x : ConnectionCall) :
    Bookkept (c.call env x).1 := by
  cases x with
  | onConnectionEstablished peer id relayed => exact h.established env peer id relayed
  | startHolePunchAttempt peer timeout => exact h.start env peer timeout
  | onConnectionClosed peer id numEstablished => exact h.closed peer id numEstablished
  | onDialing peer id => exact h.dialing peer id
  | onOutgoingConnectionError peer id text => exact h.outgoingError peer id text
  | completeHolePunchAttempt peer => exact h.complete peer
  | takeDueHolePunchTimeouts now => exact h.takeDue env now

/-- A failed dial is never charged to another attempt than its own. -/
theorem Bookkept.not_staleTracked (h : Bookkept c) (peer : Option PeerId) (id : ConnectionId)
    (text : String) (q : PeerId) (expected received : ℕ) :
    (c.onOutgoingConnectionError peer id text).2 ≠ .staleTracked q expected received := by
  unfold onOutgoingConnectionError
  dsimp only
  split
  · rename_i p k hdial
    obtain ⟨stats, hstats, hid⟩ := h.dials id p k hdial
    split
    · unfold failTrackedDial
      rw [hstats]
      simp [hid]
    · exact OutgoingErrorUpdate.noConfusion
  · split <;> exact OutgoingErrorUpdate.noConfusion

/-! ## The ids of the attempts of a peer -/

end ConnectionStateMachine

/-- The id that a call has issued for a new attempt of a peer. -/
def ConnectionReply.issued (p : PeerId) : ConnectionReply → Option ℕ
  | .attemptStarted peer attemptId => if peer = p then attemptId else none
  | _ => none

/-- The ids that some calls have issued for the attempts of a peer, in order. -/
def issuedIds (p : PeerId) (replies : List ConnectionReply) : List ℕ :=
  replies.filterMap (ConnectionReply.issued p)

namespace ConnectionStateMachine

variable {env : Env} {c : ConnectionStateMachine} {p : PeerId}

/-- A call issues the next id for a peer and remembers it, or none. -/
theorem call_issued (env : Env) (c : ConnectionStateMachine) (x : ConnectionCall) (p : PeerId) :
    (c.call env x).2.issued p = none ∧
        (c.call env x).1.holePunchAttemptSeq.get? p = c.holePunchAttemptSeq.get? p ∨
      (c.call env x).2.issued p = some (c.nextHolePunchAttemptId p) ∧
        (c.call env x).1.holePunchAttemptSeq.get? p = some (c.nextHolePunchAttemptId p) := by
  cases x with
  | onConnectionEstablished peer id relayed => cases relayed <;> exact Or.inl ⟨rfl, rfl⟩
  | startHolePunchAttempt peer timeout =>
    simp only [call]
    rcases c.startHolePunchAttempt_eq env peer timeout with heq | ⟨_, _, heq⟩
    · rw [heq]
      exact Or.inl ⟨ite_self _, rfl⟩
    · rw [heq]
      by_cases hp : peer = p
      · subst hp
        exact Or.inr ⟨if_pos rfl, FiniteMap.get?_insert_self _ _ _⟩
      · exact Or.inl ⟨if_neg hp, FiniteMap.get?_insert_of_ne _ _ (Ne.symm hp)⟩
  | onConnectionClosed peer id numEstablished =>
    refine Or.inl ⟨rfl, ?_⟩
    simp only [call, onConnectionClosed]
    split <;> rfl
  | onDialing peer id =>
    refine Or.inl ⟨rfl, ?_⟩
    simp only [call, onDialing]
    split
    · rfl
    · split <;> rfl
  | onOutgoingConnectionError peer id text =>
    refine Or.inl ⟨rfl, ?_⟩
    simp only [call, onOutgoingConnectionError, failTrackedDial]
    split
    · split
      · split
        · split <;> rfl
        · rfl
      · rfl
    · split <;> rfl
  | completeHolePunchAttempt peer => exact Or.inl ⟨rfl, rfl⟩
  | takeDueHolePunchTimeouts now => exact Or.inl ⟨rfl, rfl⟩

/-- The last of the first numbers is their number. -/
theorem getLast?_getD_range' (n : ℕ) : (List.range' 1 n).getLast?.getD 0 = n := by
  cases n with
  | zero => rfl
  | succ n => simp [List.getLast?_range']

/-- One more call may issue one more id. -/
theorem issuedIds_concat (calls : List (Env × ConnectionCall)) (i : Env × ConnectionCall)
    (p : PeerId) :
    issuedIds p (machine.outputs new (calls ++ [i])) =
      issuedIds p (machine.outputs new calls) ++
        (((machine.after new calls).call i.1 i.2).2.issued p).toList := by
  unfold issuedIds
  rw [Mealy.Machine.outputs_concat, List.filterMap_append]
  rfl

/-- The ids of a peer are issued in order, and the last one is remembered. -/
theorem issuedIds_eq_range (calls : List (Env × ConnectionCall)) (p : PeerId)
    (hfew : (issuedIds p (machine.outputs new calls)).length < 2 ^ 64) :
    issuedIds p (machine.outputs new calls) =
        List.range' 1 (issuedIds p (machine.outputs new calls)).length ∧
      (machine.after new calls).holePunchAttemptSeq.get? p =
        (issuedIds p (machine.outputs new calls)).getLast? := by
  induction calls using List.reverseRecOn with
  | nil => exact ⟨rfl, rfl⟩
  | append_singleton calls i ih =>
    rw [issuedIds_concat] at hfew ⊢
    rw [Mealy.Machine.after_concat]
    rw [List.length_append] at hfew
    obtain ⟨hrange, hlast⟩ := ih (by omega)
    rcases call_issued i.1 (machine.after new calls) i.2 p with ⟨hnone, hseq⟩ | ⟨hsome, hseq⟩
    · rw [hnone, Option.toList_none, List.append_nil]
      exact ⟨hrange, hseq.trans hlast⟩
    · have hnext : (machine.after new calls).nextHolePunchAttemptId p =
          (issuedIds p (machine.outputs new calls)).length + 1 := by
        have hcount : (machine.after new calls).holePunchAttemptSeq.getD p 0 =
            (issuedIds p (machine.outputs new calls)).length := by
          rw [FiniteMap.getD, hlast, hrange, getLast?_getD_range', List.length_range']
        rw [hsome, Option.toList_some, List.length_singleton] at hfew
        unfold nextHolePunchAttemptId saturatingAdd u64Max
        omega
      rw [hsome, Option.toList_some, hnext]
      constructor
      · rw [List.length_append, List.length_singleton, List.range'_concat, ← hrange,
          Nat.one_mul, Nat.add_comm 1]
      · rw [List.getLast?_concat, ← hnext]
        exact hseq

/-- **Attempts and dials.** However the public methods are called, deadlines and counted dials
belong to the active attempt of their peer, attempts are numbered consecutively, no more dials
have failed than were started, and a peer that is punched has no direct connection. Hence no
failed dial is ever found to belong to a stale attempt. -/
theorem attempts_bookkept (calls : List (Env × ConnectionCall))
    (hfew : ∀ p, (issuedIds p (machine.outputs new calls)).length < 2 ^ 64) :
    let c := machine.after new calls
    let ids := fun p => issuedIds p (machine.outputs new calls)
    (∀ p entry, c.holePunchDeadlines.get? p = some entry →
      ∃ stats, c.holePunchAttempts.get? p = some stats ∧ stats.attemptId = entry.attemptId) ∧
    (∀ p, ids p = List.range' 1 (ids p).length) ∧
    (∀ p stats, c.holePunchAttempts.get? p = some stats →
      (ids p).getLast? = some stats.attemptId) ∧
    (∀ id p k, c.pendingHolePunchDials.get? id = some (p, k) →
      ∃ stats, c.holePunchAttempts.get? p = some stats ∧ stats.attemptId = k) ∧
    (∀ p stats, c.holePunchAttempts.get? p = some stats →
      stats.dialsFailed ≤ stats.dialsStarted) ∧
    (∀ p, c.holePunchAttempts.contains p = true → c.directConnections.get? p = none) ∧
    ∀ p expected received,
      ConnectionReply.outgoingError (.staleTracked p expected received) ∉
        machine.outputs new calls := by
  intro c ids
  have hnew : Bookkept new := by
    constructor
    case deadlines => intro p entry h; cases h
    case latest => intro p stats h; cases h
    case dials => intro id p k h; cases h
    case failures => intro p stats h; cases h
    case direct => intro p stats h; cases h
  have hbooks : Bookkept c :=
    Mealy.Machine.invariant calls hnew fun c i (h : Bookkept c) => h.call i.1 i.2
  refine ⟨hbooks.deadlines, fun p => (issuedIds_eq_range calls p (hfew p)).1, ?_, hbooks.dials, ?_,
    ?_, ?_⟩
  · intro p stats hstats
    rw [← hbooks.latest p stats hstats]
    exact (issuedIds_eq_range calls p (hfew p)).2.symm
  · intro p stats hstats
    obtain ⟨hmax, hcount⟩ := hbooks.failures p stats hstats
    omega
  · intro p hattempt
    obtain ⟨stats, hstats⟩ := FiniteMap.contains_iff.mp hattempt
    exact hbooks.direct p stats hstats
  · intro p expected received hstale
    have hfree : machine.Guarded (fun _ _ => True) new calls := .of_forall_mem fun _ _ _ => trivial
    refine hfree.forall_outputs (P := Bookkept)
      (Q := fun r => r ≠ .outgoingError (.staleTracked p expected received)) hnew
      (fun c i h _ => h.call i.1 i.2) (fun c i h _ r hr heq => ?_) _ hstale rfl
    rw [List.mem_singleton.mp hr] at heq
    obtain ⟨env, x⟩ := i
    cases x with
    | onOutgoingConnectionError peer id text =>
      exact h.not_staleTracked peer id text p expected received (ConnectionReply.outgoingError.inj heq)
    | _ => cases heq

/-- A relayed peer is punched twice, with a failed dial in the first attempt and a direct
connection in between. -/
def punchedTwice : List (Env × ConnectionCall) :=
  [.onConnectionEstablished ⟨1⟩ ⟨1⟩ true, .startHolePunchAttempt ⟨1⟩ 30, .onDialing ⟨1⟩ ⟨2⟩,
    .onOutgoingConnectionError (some ⟨1⟩) ⟨2⟩ "timeout", .onDialing ⟨1⟩ ⟨3⟩,
    .onConnectionEstablished ⟨1⟩ ⟨4⟩ false, .onConnectionClosed ⟨1⟩ ⟨4⟩ 1,
    .onConnectionEstablished ⟨1⟩ ⟨5⟩ true, .startHolePunchAttempt ⟨1⟩ 30].map (Env.sorted, ·)

/-- The second attempt has the id that was issued last. -/
theorem attempts_bookkept_twice :
    (issuedIds ⟨1⟩ (machine.outputs new punchedTwice)).getLast? = some 2 := by
  obtain ⟨stats, hstats, hid⟩ : ∃ stats, (machine.after new punchedTwice).holePunchAttempts.get? ⟨1⟩ =
      some stats ∧ stats.attemptId = 2 := ⟨⟨2, 0, 0, 0, none⟩, by decide⟩
  rw [← hid]
  refine (attempts_bookkept punchedTwice fun p => ?_).2.2.1 ⟨1⟩ stats hstats
  exact (List.length_filterMap_le _ _).trans_lt (by decide)

end ConnectionStateMachine

end Punchgate
