import Punchgate.Node.Attempts

/-!
# Timeouts

An attempt that is started for a peer leaves a deadline, and the deadline is taken when it is due,
forgotten when the attempt ends, or replaced by that of a later attempt. So an attempt times out
once at most. Only the ids do not tell attempts apart for ever: the counter stays at its largest
value once it has got there.
-/

namespace Punchgate

/-- The ids that a call has returned as timed out for a peer. -/
def ConnectionReply.timedOut (p : PeerId) : ConnectionReply → List ℕ
  | .dueTimeouts due => (due.filter fun e => e.1 = p).map Prod.snd
  | _ => []

/-- The ids that some calls have returned as timed out for a peer, in order. -/
def timedOutIds (p : PeerId) (replies : List ConnectionReply) : List ℕ :=
  replies.flatMap (ConnectionReply.timedOut p)

namespace ConnectionStateMachine

variable {env : Env} {c : ConnectionStateMachine} {p : PeerId} {k : ℕ} {now : Instant}

/-! ## One call -/

/-- A call completes the attempt of a peer: a direct connection, a full disconnect, or a request to
do so. -/
def Completes (c : ConnectionStateMachine) (p : PeerId) : ConnectionCall → Prop
  | .onConnectionEstablished peer _ relayed => peer = p ∧ relayed = false
  | .onConnectionClosed peer id numEstablished =>
    peer = p ∧ (c.onConnectionClosed peer id numEstablished).2.peerFullyDisconnected = true
  | .completeHolePunchAttempt peer => peer = p
  | _ => False

/-- What taking the due timeouts returns for a peer. -/
theorem timedOut_takeDue (env : Env) (c : ConnectionStateMachine) (now : Instant) (p : PeerId) :
    (ConnectionReply.dueTimeouts (c.takeDueHolePunchTimeouts env now).2).timedOut p =
      (((c.holePunchDeadlines.get? p).filter fun entry => entry.deadline ≤ now).map
        HolePunchDeadline.attemptId).toList := by
  have hentries := congrArg (List.filter fun e => decide (e.2.deadline ≤ now))
    (c.holePunchDeadlines.filter_entries env.peerOrder p)
  rw [List.filter_filter] at hentries
  simp only [ConnectionReply.timedOut, takeDueHolePunchTimeouts, List.filter_map, List.map_map,
    Function.comp_def, List.filter_filter]
  rw [List.filter_congr fun e _ => Bool.and_comm _ _, hentries]
  cases c.holePunchDeadlines.get? p with
  | none => rfl
  | some entry =>
    rw [Option.filter_some]
    by_cases hdue : entry.deadline ≤ now
    · simp [hdue]
    · simp [not_le.mp hdue]

/-- A peer is among those with due timeouts if an id is returned for it. -/
theorem mem_takeDue_iff : (p, k) ∈ (c.takeDueHolePunchTimeouts env now).2 ↔
    k ∈ (ConnectionReply.dueTimeouts (c.takeDueHolePunchTimeouts env now).2).timedOut p := by
  simp [ConnectionReply.timedOut]

/-- Taking the due timeouts leaves the deadlines after them. -/
theorem holePunchDeadlines_takeDue (env : Env) (c : ConnectionStateMachine) (now : Instant)
    (p : PeerId) :
    (c.takeDueHolePunchTimeouts env now).1.holePunchDeadlines.get? p =
      (c.holePunchDeadlines.get? p).filter fun entry => now < entry.deadline := by
  have hleft := c.holePunchDeadlines.get?_foldl_erase (c.takeDueHolePunchTimeouts env now).2 p
  have hdue : p ∈ (c.takeDueHolePunchTimeouts env now).2.map Prod.fst ↔
      ∃ entry, c.holePunchDeadlines.get? p = some entry ∧ entry.deadline ≤ now := by
    rw [List.mem_map]
    constructor
    · rintro ⟨⟨q, k⟩, hmem, rfl⟩
      rw [mem_takeDue_iff, timedOut_takeDue, Option.mem_toList, Option.map_eq_some_iff] at hmem
      obtain ⟨entry, hentry, -⟩ := hmem
      obtain ⟨hget, hle⟩ := Option.filter_eq_some_iff.mp hentry
      exact ⟨entry, hget, of_decide_eq_true hle⟩
    · rintro ⟨entry, hget, hle⟩
      refine ⟨(p, entry.attemptId), ?_, rfl⟩
      rw [mem_takeDue_iff, timedOut_takeDue, hget, Option.filter_some, if_pos (decide_eq_true hle)]
      exact List.mem_singleton_self _
  refine hleft.trans ?_
  split
  · rename_i hp
    obtain ⟨entry, hget, hle⟩ := hdue.mp hp
    rw [hget, Option.filter_some, if_neg (by simpa using hle)]
  · rename_i hp
    cases hget : c.holePunchDeadlines.get? p with
    | none => rfl
    | some entry =>
      have hlt : now < entry.deadline := not_le.mp fun hle => hp (hdue.mpr ⟨entry, hget, hle⟩)
      rw [Option.filter_some, if_pos (decide_eq_true hlt)]

/-- What a call can do to the deadline of a peer: set it for a new attempt, return it when it is
due, forget it with its attempt, or leave it alone. -/
theorem call_deadline (env : Env) (c : ConnectionStateMachine) (x : ConnectionCall) (p : PeerId) :
    (∃ timeout k, x = .startHolePunchAttempt p timeout ∧ (c.call env x).2.issued p = some k ∧
      (c.call env x).2.timedOut p = [] ∧
      (c.call env x).1.holePunchDeadlines.get? p = some ⟨k, env.now + timeout⟩) ∨
    (∃ now entry, x = .takeDueHolePunchTimeouts now ∧ c.holePunchDeadlines.get? p = some entry ∧
      entry.deadline ≤ now ∧ (c.call env x).2.issued p = none ∧
      (c.call env x).2.timedOut p = [entry.attemptId] ∧
      (c.call env x).1.holePunchDeadlines.get? p = none) ∨
    (c.Completes p x ∧ (c.call env x).2.issued p = none ∧ (c.call env x).2.timedOut p = [] ∧
      (c.call env x).1.holePunchDeadlines.get? p = none) ∨
    (¬c.Completes p x ∧ (c.call env x).2.issued p = none ∧ (c.call env x).2.timedOut p = [] ∧
      (c.call env x).1.holePunchDeadlines.get? p = c.holePunchDeadlines.get? p) := by
  cases x with
  | onConnectionEstablished peer id relayed =>
    cases relayed with
    | true => exact Or.inr (Or.inr (Or.inr ⟨fun h => absurd h.2 (by decide), rfl, rfl, rfl⟩))
    | false =>
      by_cases hp : peer = p
      · subst hp
        exact Or.inr (Or.inr (Or.inl ⟨⟨rfl, rfl⟩, rfl, rfl, FiniteMap.get?_erase_self _ _⟩))
      · exact Or.inr (Or.inr (Or.inr
          ⟨fun h => hp h.1, rfl, rfl, FiniteMap.get?_erase_of_ne _ (Ne.symm hp)⟩))
  | startHolePunchAttempt peer timeout =>
    simp only [call]
    rcases c.startHolePunchAttempt_eq env peer timeout with heq | ⟨_, _, heq⟩
    · rw [heq]
      exact Or.inr (Or.inr (Or.inr ⟨id, ite_self _, rfl, rfl⟩))
    · rw [heq]
      by_cases hp : peer = p
      · subst hp
        exact Or.inl ⟨timeout, _, rfl, if_pos rfl, rfl, FiniteMap.get?_insert_self _ _ _⟩
      · exact Or.inr (Or.inr (Or.inr
          ⟨id, if_neg hp, rfl, FiniteMap.get?_insert_of_ne _ _ (Ne.symm hp)⟩))
  | onConnectionClosed peer id numEstablished =>
    have hstate := onConnectionClosed_eq c peer id numEstablished
    have hget :
        (c.call env (.onConnectionClosed peer id numEstablished)).1.holePunchDeadlines.get? p =
          (c.onConnectionClosed peer id numEstablished).1.holePunchDeadlines.get? p := rfl
    rw [hget, hstate]
    by_cases hfull : (c.onConnectionClosed peer id numEstablished).2.peerFullyDisconnected = true
    · rw [if_pos hfull]
      by_cases hp : peer = p
      · subst hp
        exact Or.inr (Or.inr (Or.inl ⟨⟨rfl, hfull⟩, rfl, rfl, FiniteMap.get?_erase_self _ _⟩))
      · exact Or.inr (Or.inr (Or.inr
          ⟨fun h => hp h.1, rfl, rfl, FiniteMap.get?_erase_of_ne _ (Ne.symm hp)⟩))
    · rw [if_neg hfull]
      exact Or.inr (Or.inr (Or.inr ⟨fun h => hfull h.2, rfl, rfl, rfl⟩))
  | onDialing peer id =>
    refine Or.inr (Or.inr (Or.inr ⟨fun h => h, rfl, rfl, ?_⟩))
    simp only [call, onDialing]
    split
    · rfl
    · split <;> rfl
  | onOutgoingConnectionError peer id text =>
    refine Or.inr (Or.inr (Or.inr ⟨fun h => h, rfl, rfl, ?_⟩))
    simp only [call, onOutgoingConnectionError, failTrackedDial]
    split
    · split
      · split
        · split <;> rfl
        · rfl
      · rfl
    · split <;> rfl
  | completeHolePunchAttempt peer =>
    by_cases hp : peer = p
    · subst hp
      exact Or.inr (Or.inr (Or.inl ⟨rfl, rfl, rfl, FiniteMap.get?_erase_self _ _⟩))
    · exact Or.inr (Or.inr (Or.inr ⟨hp, rfl, rfl, FiniteMap.get?_erase_of_ne _ (Ne.symm hp)⟩))
  | takeDueHolePunchTimeouts now =>
    have hreturned := timedOut_takeDue env c now p
    have hleft := holePunchDeadlines_takeDue env c now p
    cases hget : c.holePunchDeadlines.get? p with
    | none =>
      rw [hget] at hreturned hleft
      exact Or.inr (Or.inr (Or.inr ⟨fun h => h, rfl, hreturned, hleft⟩))
    | some entry =>
      rw [hget, Option.filter_some] at hreturned hleft
      by_cases hdue : entry.deadline ≤ now
      · rw [if_pos (decide_eq_true hdue)] at hreturned
        rw [if_neg (by simpa using hdue)] at hleft
        exact Or.inr (Or.inl ⟨now, entry, rfl, rfl, hdue, rfl, hreturned, hleft⟩)
      · rw [if_neg (by simpa using hdue)] at hreturned
        rw [if_pos (decide_eq_true (not_le.mp hdue))] at hleft
        exact Or.inr (Or.inr (Or.inr ⟨fun h => h, rfl, hreturned, hleft⟩))

/-! ## Runs -/

/-- A call starts an attempt of a peer under an id that is due at a time. -/
def StartsDue (p : PeerId) (k : ℕ) (now : Instant) (c : ConnectionStateMachine)
    (i : Env × ConnectionCall) : Prop :=
  ∃ timeout, i.2 = .startHolePunchAttempt p timeout ∧ (c.call i.1 i.2).2.issued p = some k ∧
    i.1.now + timeout ≤ now

/-- A call completes the attempt of a peer, starts another one, or returns it as timed out. -/
def Settles (p : PeerId) (c : ConnectionStateMachine) (i : Env × ConnectionCall) : Prop :=
  c.Completes p i.2 ∨ (c.call i.1 i.2).2.issued p ≠ none ∨ (c.call i.1 i.2).2.timedOut p ≠ []

/-- The attempt of a peer has a pending deadline that is due at a time. -/
def Due (p : PeerId) (k : ℕ) (now : Instant) (c : ConnectionStateMachine) : Prop :=
  ∃ entry, c.holePunchDeadlines.get? p = some entry ∧ entry.attemptId = k ∧ entry.deadline ≤ now

/-- The due timeouts of a state. -/
theorem mem_takeDue_iff_due :
    (p, k) ∈ (c.takeDueHolePunchTimeouts env now).2 ↔ c.Due p k now := by
  rw [mem_takeDue_iff, timedOut_takeDue, Option.mem_toList, Option.map_eq_some_iff]
  simp only [Option.filter_eq_some_iff, decide_eq_true_eq]
  exact ⟨fun ⟨entry, ⟨hget, hle⟩, hid⟩ => ⟨entry, hget, hid, hle⟩,
    fun ⟨entry, hget, hid, hle⟩ => ⟨entry, ⟨hget, hle⟩, hid⟩⟩

/-- **Step.** A timeout is due after a call if the call starts the attempt, or if it was due before
and the call does not settle it. -/
theorem due_step (p : PeerId) (k : ℕ) (now : Instant) (c : ConnectionStateMachine)
    (i : Env × ConnectionCall) :
    (machine.step c i).1.Due p k now ↔
      StartsDue p k now c i ∨ c.Due p k now ∧ ¬Settles p c i := by
  obtain ⟨env, x⟩ := i
  rcases c.call_deadline env x p with ⟨timeout, k', rfl, hissued, _, hget⟩ |
    ⟨_, _, rfl, _, _, hissued, htimedOut, hget⟩ | ⟨hcompletes, hissued, _, hget⟩ |
    ⟨hquiet, hissued, htimedOut, hget⟩
  · have hdue : (machine.step c (env, .startHolePunchAttempt p timeout)).1.Due p k now ↔
        k' = k ∧ env.now + timeout ≤ now := by
      constructor
      · rintro ⟨entry, hentry, hid, hle⟩
        obtain rfl := Option.some.inj (hget.symm.trans hentry)
        exact ⟨hid, hle⟩
      · rintro ⟨rfl, hle⟩
        exact ⟨_, hget, rfl, hle⟩
    rw [hdue]
    constructor
    · rintro ⟨rfl, hle⟩
      exact Or.inl ⟨timeout, rfl, hissued, hle⟩
    · rintro (⟨timeout', heq, hissued', hle⟩ | ⟨_, hquiet⟩)
      · obtain ⟨_, rfl⟩ := ConnectionCall.startHolePunchAttempt.inj heq
        exact ⟨Option.some.inj (hissued.symm.trans hissued'), hle⟩
      · exact absurd (Or.inr (Or.inl (by rw [hissued]; exact Option.some_ne_none k'))) hquiet
  · refine iff_of_false ?_ ?_
    · rintro ⟨entry, hentry, _⟩
      cases hget.symm.trans hentry
    · rintro (⟨_, _, hissued', _⟩ | ⟨_, hquiet⟩)
      · cases hissued.symm.trans hissued'
      · exact hquiet (Or.inr (Or.inr (by rw [htimedOut]; exact List.cons_ne_nil _ _)))
  · refine iff_of_false ?_ ?_
    · rintro ⟨entry, hentry, _⟩
      cases hget.symm.trans hentry
    · rintro (⟨_, _, hissued', _⟩ | ⟨_, hquiet⟩)
      · cases hissued.symm.trans hissued'
      · exact hquiet (Or.inl hcompletes)
  · have hdue : (machine.step c (env, x)).1.Due p k now ↔ c.Due p k now := by
      unfold Due
      rw [show (machine.step c (env, x)).1.holePunchDeadlines.get? p = _ from hget]
    have hsettles : ¬Settles p c (env, x) := by
      rintro (hcompletes | hissued' | htimedOut')
      · exact hquiet hcompletes
      · exact hissued' hissued
      · exact htimedOut' htimedOut
    have hstarts : ¬StartsDue p k now c (env, x) := by
      rintro ⟨_, _, hissued', _⟩
      cases hissued.symm.trans hissued'
    rw [hdue]
    simp [hstarts, hsettles]

/-- **Timeouts tell of their attempt.** An attempt is returned as timed out exactly if it was
started so long ago that it is due, and has not been settled since. -/
theorem mem_takeDue_iff_since (calls : List (Env × ConnectionCall)) :
    (p, k) ∈ ((machine.after new calls).takeDueHolePunchTimeouts env now).2 ↔
      machine.Since (StartsDue p k now) (Settles p) new calls := by
  rw [mem_takeDue_iff_due]
  refine Mealy.Machine.after_iff_since calls ?_ (due_step p k now)
  rintro ⟨entry, hget, _⟩
  cases hget

/-- One more call may return one more timeout. -/
theorem timedOutIds_concat (calls : List (Env × ConnectionCall)) (i : Env × ConnectionCall)
    (p : PeerId) :
    timedOutIds p (machine.outputs new (calls ++ [i])) =
      timedOutIds p (machine.outputs new calls) ++
        ((machine.after new calls).call i.1 i.2).2.timedOut p := by
  unfold timedOutIds
  rw [Mealy.Machine.outputs_concat, List.flatMap_append]
  exact congrArg _ (List.append_nil _)

/-- An id is returned at most as often as it is issued, and less often while it is pending. -/
theorem count_timedOutIds_le (calls : List (Env × ConnectionCall)) (p : PeerId) (k : ℕ) :
    (timedOutIds p (machine.outputs new calls)).count k +
        (((machine.after new calls).holePunchDeadlines.get? p).map
          HolePunchDeadline.attemptId).toList.count k ≤
      (issuedIds p (machine.outputs new calls)).count k := by
  induction calls using List.reverseRecOn with
  | nil => exact le_rfl
  | append_singleton calls i ih =>
    obtain ⟨env, x⟩ := i
    rw [timedOutIds_concat, issuedIds_concat, Mealy.Machine.after_concat, List.count_append,
      List.count_append]
    change _ + ((((machine.after new calls).call env x).1.holePunchDeadlines.get? p).map
      HolePunchDeadline.attemptId).toList.count k ≤ _
    rcases (machine.after new calls).call_deadline env x p with
      ⟨timeout, k', _, hissued, htimedOut, hget⟩ |
      ⟨_, entry, _, hentry, _, hissued, htimedOut, hget⟩ | ⟨_, hissued, htimedOut, hget⟩ |
      ⟨_, hissued, htimedOut, hget⟩
    · rw [hissued, htimedOut, hget]
      simp only [List.count_nil, Option.map_some, Option.toList_some]
      omega
    · rw [hentry] at ih
      rw [hissued, htimedOut, hget]
      simpa using ih
    · rw [hissued, htimedOut, hget]
      simp only [List.count_nil, Option.map_none, Option.toList_none]
      omega
    · rw [hissued, htimedOut, hget]
      simpa using ih

/-- Ids below the largest value of the counter are issued once at most. -/
theorem count_issuedIds_le_one (calls : List (Env × ConnectionCall)) (p : PeerId) :
    (∀ k ∈ issuedIds p (machine.outputs new calls),
      k ≤ (machine.after new calls).holePunchAttemptSeq.getD p 0 ∧ k ≤ u64Max) ∧
    ∀ k < u64Max, (issuedIds p (machine.outputs new calls)).count k ≤ 1 := by
  induction calls using List.reverseRecOn with
  | nil => exact ⟨fun k hk => absurd hk List.not_mem_nil, fun k _ => Nat.zero_le 1⟩
  | append_singleton calls i ih =>
    obtain ⟨hle, honce⟩ := ih
    rw [issuedIds_concat, Mealy.Machine.after_concat]
    rcases call_issued i.1 (machine.after new calls) i.2 p with ⟨hnone, hseq⟩ | ⟨hsome, hseq⟩
    · rw [hnone, Option.toList_none, List.append_nil]
      refine ⟨fun k hk => ?_, honce⟩
      exact ⟨(hle k hk).1.trans_eq (congrArg (Option.getD · 0) hseq).symm, (hle k hk).2⟩
    · have hnext : (machine.step (machine.after new calls) i).1.holePunchAttemptSeq.getD p 0 =
          (machine.after new calls).nextHolePunchAttemptId p := congrArg (Option.getD · 0) hseq
      have hnext' : (machine.after new calls).nextHolePunchAttemptId p =
          min ((machine.after new calls).holePunchAttemptSeq.getD p 0 + 1) u64Max := rfl
      rw [hsome, Option.toList_some, hnext]
      constructor
      · intro k hk
        rcases List.mem_append.mp hk with hk | hk
        · have hold := hle k hk
          omega
        · rw [List.mem_singleton] at hk
          omega
      · intro k hk
        rw [List.count_append, List.count_singleton]
        have hold := honce k hk
        by_cases heq : (machine.after new calls).nextHolePunchAttemptId p = k
        · have hfresh : (issuedIds p (machine.outputs new calls)).count k = 0 := by
            refine List.count_eq_zero_of_not_mem fun hmem => ?_
            have hold := (hle k hmem).1
            omega
          simp [hfresh, heq]
        · simp [heq, hold]

/-- After the due timeouts were taken, the next deadline is later. -/
theorem nextHolePunchDeadline_takeDue {env' : Env} {deadline : Instant}
    (h : (c.takeDueHolePunchTimeouts env now).1.nextHolePunchDeadline env' = some deadline) :
    now < deadline := by
  obtain ⟨⟨p, entry⟩, hmem, rfl⟩ := List.mem_map.mp (List.min?_mem h)
  have hget := FiniteMap.mem_entries.mp hmem
  rw [holePunchDeadlines_takeDue] at hget
  exact of_decide_eq_true (Option.filter_eq_some_iff.mp hget).2

/-- **Timeouts.** In every run, a timeout is returned exactly for an attempt that was started at
least its timeout ago and has not been completed, replaced or returned since. No id is returned for
a peer more often than it was issued, and ids below the largest one are issued once at most. After
the due timeouts were taken, no deadline is due. -/
theorem timeouts_fire_once (calls : List (Env × ConnectionCall)) (env : Env) (now : Instant) :
    (∀ p k, (p, k) ∈ ((machine.after new calls).takeDueHolePunchTimeouts env now).2 ↔
      machine.Since (StartsDue p k now) (Settles p) new calls) ∧
    (∀ p k, (timedOutIds p (machine.outputs new calls)).count k ≤
      (issuedIds p (machine.outputs new calls)).count k) ∧
    (∀ p, ∀ k < u64Max, (issuedIds p (machine.outputs new calls)).count k ≤ 1) ∧
    ∀ env' deadline, ((machine.after new calls).takeDueHolePunchTimeouts env
      now).1.nextHolePunchDeadline env' = some deadline → now < deadline := by
  refine ⟨fun p k => mem_takeDue_iff_since calls, fun p k => ?_,
    fun p => (count_issuedIds_le_one calls p).2, fun env' deadline => nextHolePunchDeadline_takeDue⟩
  exact (Nat.le_add_right _ _).trans (count_timedOutIds_le calls p k)

/-- The timeout of the second attempt of the sample run, which was started under the id 2. -/
theorem timeouts_fire_once_twice :
    machine.Since (StartsDue ⟨1⟩ 2 30) (Settles ⟨1⟩) new punchedTwice :=
  ((timeouts_fire_once punchedTwice .sorted 30).1 ⟨1⟩ 2).mp (by decide)

/-! ## A counter at its end -/

/-- An attempt of a relayed peer that times out at once and is completed. -/
def timedOutRound : List (Env × ConnectionCall) :=
  [.onConnectionEstablished ⟨1⟩ ⟨1⟩ true, .startHolePunchAttempt ⟨1⟩ 0,
    .takeDueHolePunchTimeouts 0, .completeHolePunchAttempt ⟨1⟩].map (Env.sorted, ·)

/-- Such attempts one after the other. -/
def timedOutRounds : ℕ → List (Env × ConnectionCall)
  | 0 => []
  | n + 1 => timedOutRounds n ++ timedOutRound

/-- A round issues the next id and returns it, and leaves the peer ready for another one. -/
theorem timedOutRound_spec (hattempt : c.holePunchAttempts.get? ⟨1⟩ = none)
    (hdirect : c.directConnections.get? ⟨1⟩ = none) :
    (machine.after c timedOutRound).holePunchAttempts.get? ⟨1⟩ = none ∧
      (machine.after c timedOutRound).directConnections.get? ⟨1⟩ = none ∧
      (machine.after c timedOutRound).holePunchAttemptSeq.getD ⟨1⟩ 0 = c.nextHolePunchAttemptId ⟨1⟩ ∧
      timedOutIds ⟨1⟩ (machine.outputs c timedOutRound) = [c.nextHolePunchAttemptId ⟨1⟩] := by
  let c₁ := (c.onConnectionEstablished .sorted ⟨1⟩ ⟨1⟩ true).1
  let c₂ := (c₁.startHolePunchAttempt .sorted ⟨1⟩ 0).1
  let c₃ := (c₂.takeDueHolePunchTimeouts .sorted 0).1
  have hrelay : c₁.peerIsRelayOnly ⟨1⟩ = true := by
    simp [c₁, peerIsRelayOnly, hasRelayedConnection, hasDirectConnection, onConnectionEstablished,
      FiniteMap.contains, hdirect]
  have hfree : c₁.holePunchAttempts.contains ⟨1⟩ = false := FiniteMap.contains_eq_false.mpr hattempt
  have hstart : c₁.startHolePunchAttempt .sorted ⟨1⟩ 0 =
      ({ c₁ with
        holePunchAttemptSeq := c₁.holePunchAttemptSeq.insert ⟨1⟩ (c.nextHolePunchAttemptId ⟨1⟩)
        holePunchAttempts :=
          c₁.holePunchAttempts.insert ⟨1⟩ (.new .sorted (c.nextHolePunchAttemptId ⟨1⟩))
        holePunchDeadlines := c₁.holePunchDeadlines.insert ⟨1⟩
          ⟨c.nextHolePunchAttemptId ⟨1⟩, 0⟩ }, some (c.nextHolePunchAttemptId ⟨1⟩)) := by
    unfold startHolePunchAttempt
    rw [hrelay, hfree]
    rfl
  have hdeadline : c₂.holePunchDeadlines.get? ⟨1⟩ = some ⟨c.nextHolePunchAttemptId ⟨1⟩, 0⟩ := by
    have hget := congrArg (fun r => r.1.holePunchDeadlines.get? ⟨1⟩) hstart
    exact hget.trans (FiniteMap.get?_insert_self _ _ _)
  have hreturned : (ConnectionReply.dueTimeouts (c₂.takeDueHolePunchTimeouts .sorted 0).2).timedOut
      ⟨1⟩ = [c.nextHolePunchAttemptId ⟨1⟩] := by
    rw [timedOut_takeDue, hdeadline]
    rfl
  refine ⟨FiniteMap.get?_erase_self _ _, ?_, ?_, ?_⟩
  · exact (congrArg (fun r => r.1.directConnections.get? ⟨1⟩) hstart).trans hdirect
  · exact congrArg (fun r => r.1.holePunchAttemptSeq.getD ⟨1⟩ 0) hstart
  · exact (List.append_nil _).trans hreturned

/-- After some rounds the peer is ready for another one, and its id is their number as far as the
counter goes. Further rounds return the largest id. -/
theorem timedOutRounds_spec (n : ℕ) :
    (machine.after new (timedOutRounds n)).holePunchAttempts.get? ⟨1⟩ = none ∧
      (machine.after new (timedOutRounds n)).directConnections.get? ⟨1⟩ = none ∧
      (machine.after new (timedOutRounds n)).holePunchAttemptSeq.getD ⟨1⟩ 0 = min n u64Max ∧
      n + 1 ≤ u64Max + (timedOutIds ⟨1⟩ (machine.outputs new (timedOutRounds n))).count u64Max := by
  induction n with
  | zero => exact ⟨rfl, rfl, (Nat.zero_min _).symm, by unfold u64Max; omega⟩
  | succ n ih =>
    obtain ⟨hattempt, hdirect, hseq, hcount⟩ := ih
    obtain ⟨hattempt', hdirect', hseq', hreturned⟩ := timedOutRound_spec hattempt hdirect
    have hnext : (machine.after new (timedOutRounds n)).nextHolePunchAttemptId ⟨1⟩ =
        min (min n u64Max + 1) u64Max := by
      rw [nextHolePunchAttemptId, hseq, saturatingAdd]
    have hids : timedOutIds ⟨1⟩ (machine.outputs new (timedOutRounds (n + 1))) =
        timedOutIds ⟨1⟩ (machine.outputs new (timedOutRounds n)) ++
          [min (min n u64Max + 1) u64Max] := by
      rw [timedOutRounds, Mealy.Machine.outputs_append, timedOutIds, List.flatMap_append]
      exact congrArg _ (hreturned.trans (congrArg (fun k => [k]) hnext))
    rw [hids, List.count_append, timedOutRounds, Mealy.Machine.after_append]
    refine ⟨hattempt', hdirect', by omega, ?_⟩
    by_cases hmax : u64Max ≤ n + 1
    · have hlast : min (min n u64Max + 1) u64Max = u64Max := by omega
      rw [hlast, List.count_singleton_self]
      omega
    · omega

/-- The rounds take no time. -/
theorem eq_sorted_of_mem_timedOutRounds {n : ℕ} {i : Env × ConnectionCall}
    (h : i ∈ timedOutRounds n) : i.1 = .sorted := by
  induction n with
  | zero => cases h
  | succ n ih =>
    rcases List.mem_append.mp h with h | h
    · exact ih h
    · obtain ⟨x, _, rfl⟩ := List.mem_map.mp h
      rfl

/-- In a run of `u64::MAX + 1` attempts, the largest id is returned twice. -/
theorem largest_id_returned_twice :
    (∀ i ∈ timedOutRounds (u64Max + 1), i.1.now = 0) ∧
      2 ≤ (timedOutIds ⟨1⟩ (machine.outputs new (timedOutRounds (u64Max + 1)))).count u64Max := by
  have hspec := (timedOutRounds_spec (u64Max + 1)).2.2.2
  exact ⟨fun i hi => congrArg Env.now (eq_sorted_of_mem_timedOutRounds hi), by omega⟩

end ConnectionStateMachine

end Punchgate
