import Punchgate.Node.Backoff

/-!
# The schedule of reconnects

The loop keeps a delay for each bootstrap peer and the deadlines it has set. All it does with
them is of three kinds. A delay depends only on how often its own peer was scheduled since it
was last connected.
-/

namespace Punchgate

/-- The places of `run` that use the schedule. -/
inductive ReconnectCall
  /-- A new connection: the delay is reset and the deadline removed. -/
  | connected (peer : PeerId)
  /-- A deadline that is due is removed. -/
  | due (peer : PeerId)
  /-- A deadline is set after the next delay. -/
  | schedule (peer : PeerId)
  deriving DecidableEq

/-- The peer of a call. -/
def ReconnectCall.peer : ReconnectCall → PeerId
  | .connected peer | .due peer | .schedule peer => peer

/-- The variables `backoff` and `pending_reconnects` of `run`. -/
structure ReconnectBook where
  /-- The delays. -/
  backoff : ReconnectBackoff
  /-- The deadlines. -/
  pending : FiniteMap PeerId Instant
  deriving DecidableEq

/-- The number of schedules of a peer since it was last connected, after one more call. -/
def ReconnectCall.count (p : PeerId) (k : ℕ) : ReconnectCall → ℕ
  | .connected peer => if peer = p then 0 else k
  | .due _ => k
  | .schedule peer => if peer = p then k + 1 else k

/-- How often a peer was scheduled since it was last connected. -/
def schedulesSince (p : PeerId) (cs : List (Instant × ReconnectCall)) : ℕ :=
  cs.foldl (fun k c => c.2.count p k) 0

namespace ReconnectBook

/-- One call at a given time. -/
def call (r : ReconnectBook) (now : Instant) : ReconnectCall → ReconnectBook
  | .connected peer => ⟨r.backoff.reset peer, r.pending.erase peer⟩
  | .due peer => { r with pending := r.pending.erase peer }
  | .schedule peer =>
    match r.backoff.scheduleReconnect peer with
    | (_, none) => r
    | (backoff, some (_, delay)) => ⟨backoff, r.pending.insert peer (now + delay)⟩

/-- Calls one after the other, each at its time. -/
def calls (r : ReconnectBook) (cs : List (Instant × ReconnectCall)) : ReconnectBook :=
  cs.foldl (fun r c => r.call c.1 c.2) r

variable {r : ReconnectBook} {p : PeerId} {addr : Multiaddr}

theorem calls_append (r : ReconnectBook) (cs ds : List (Instant × ReconnectCall)) :
    r.calls (cs ++ ds) = (r.calls cs).calls ds := List.foldl_append

/-- What a call to schedule a peer does, if it has an address. -/
theorem call_schedule (haddr : r.backoff.addrs.get? p = some addr) (now : Instant) :
    r.call now (.schedule p) =
      ⟨⟨r.backoff.delays.insert p
          (min (r.backoff.delays.getD p backoffInitial * 2) backoffMax), r.backoff.addrs⟩,
        r.pending.insert p (now + r.backoff.delays.getD p backoffInitial)⟩ := by
  unfold call ReconnectBackoff.scheduleReconnect
  dsimp only
  rw [haddr]

/-- A peer without an address is not scheduled. -/
theorem call_unknown (haddr : r.backoff.addrs.get? p = none) (now : Instant) :
    r.call now (.schedule p) = r := by
  unfold call ReconnectBackoff.scheduleReconnect
  dsimp only
  rw [haddr]

/-- The addresses never change. -/
theorem call_addrs (r : ReconnectBook) (now : Instant) (c : ReconnectCall) :
    (r.call now c).backoff.addrs = r.backoff.addrs := by
  cases c with
  | connected peer => rfl
  | due peer => rfl
  | schedule peer =>
    cases haddr : r.backoff.addrs.get? peer with
    | none => rw [call_unknown haddr]
    | some addr => rw [call_schedule haddr]

theorem calls_addrs (r : ReconnectBook) (cs : List (Instant × ReconnectCall)) :
    (r.calls cs).backoff.addrs = r.backoff.addrs := by
  refine List.foldlRecOn cs _
    (motive := fun (r' : ReconnectBook) => r'.backoff.addrs = r.backoff.addrs) rfl
    fun r' hr' c _ => ?_
  exact (call_addrs r' c.1 c.2).trans hr'

/-- The delay after so many schedules. -/
def delayAfter (k : ℕ) : Duration := Duration.fromSecs (min (2 ^ k) 60)

/-- Each schedule doubles the delay, up to the greatest one. -/
theorem delayAfter_succ (k : ℕ) : min (delayAfter k * 2) backoffMax = delayAfter (k + 1) := by
  have hsecs : min (min (2 ^ k) 60 * 1000000000 * 2) (60 * 1000000000) =
      min (2 ^ (k + 1)) 60 * 1000000000 := by
    rw [pow_succ]
    omega
  exact hsecs

/-- A call changes the next delay of a peer as it changes the number of its schedules. -/
theorem call_delay (haddr : r.backoff.addrs.get? p = some addr) {k : ℕ}
    (h : r.backoff.delays.getD p backoffInitial = delayAfter k) (now : Instant)
    (c : ReconnectCall) :
    (r.call now c).backoff.delays.getD p backoffInitial = delayAfter (c.count p k) := by
  cases c with
  | connected peer =>
    change (r.backoff.delays.erase peer).getD p backoffInitial =
      delayAfter (if peer = p then 0 else k)
    by_cases hp : peer = p
    · rw [hp, if_pos rfl, FiniteMap.getD, FiniteMap.get?_erase_self]
      rfl
    · rw [if_neg hp, FiniteMap.getD, FiniteMap.get?_erase_of_ne _ fun heq => hp heq.symm]
      exact h
  | due peer => exact h
  | schedule peer =>
    change _ = delayAfter (if peer = p then k + 1 else k)
    by_cases hp : peer = p
    · rw [hp, if_pos rfl, call_schedule haddr, ← delayAfter_succ, ← h, FiniteMap.getD,
        FiniteMap.get?_insert_self]
      rfl
    · rw [if_neg hp]
      cases hpeer : r.backoff.addrs.get? peer with
      | none =>
        rw [call_unknown hpeer]
        exact h
      | some _ =>
        rw [call_schedule hpeer, FiniteMap.getD,
          FiniteMap.get?_insert_of_ne _ _ fun heq => hp heq.symm]
        exact h

/-- **Delays.** After any calls, the next delay of a peer is given by the number of its schedules
since it was last connected, whatever was scheduled for other peers. -/
theorem calls_delay (haddr : r.backoff.addrs.get? p = some addr)
    (hnew : r.backoff.delays.get? p = none) (cs : List (Instant × ReconnectCall)) :
    (r.calls cs).backoff.delays.getD p backoffInitial = delayAfter (schedulesSince p cs) := by
  induction cs using List.reverseRecOn with
  | nil =>
    change r.backoff.delays.getD p backoffInitial = _
    rw [FiniteMap.getD, hnew]
    rfl
  | append_singleton cs c ih =>
    have haddr' : (r.calls cs).backoff.addrs.get? p = some addr := by
      rw [calls_addrs]
      exact haddr
    have hcount : schedulesSince p (cs ++ [c]) = c.2.count p (schedulesSince p cs) := by
      unfold schedulesSince
      rw [List.foldl_append]
      rfl
    rw [calls_append, hcount]
    exact call_delay haddr' ih c.1 c.2

/-- A peer that is scheduled gets its deadline after the delay it is due. -/
theorem pending_schedule (haddr : r.backoff.addrs.get? p = some addr)
    (hnew : r.backoff.delays.get? p = none) (cs : List (Instant × ReconnectCall)) (now : Instant) :
    ((r.calls cs).call now (.schedule p)).pending.get? p =
      some (now + delayAfter (schedulesSince p cs)) := by
  have haddr' : (r.calls cs).backoff.addrs.get? p = some addr := by
    rw [calls_addrs]
    exact haddr
  rw [call_schedule haddr', calls_delay haddr hnew, FiniteMap.get?_insert_self]

/-- Calls for other peers leave the deadline of a peer alone. -/
theorem call_pending_of_ne (now : Instant) {c : ReconnectCall} (hc : c.peer ≠ p) :
    (r.call now c).pending.get? p = r.pending.get? p := by
  cases c with
  | connected peer => exact FiniteMap.get?_erase_of_ne _ hc.symm
  | due peer => exact FiniteMap.get?_erase_of_ne _ hc.symm
  | schedule peer =>
    cases haddr : r.backoff.addrs.get? peer with
    | none => rw [call_unknown haddr]
    | some _ =>
      rw [call_schedule haddr]
      exact FiniteMap.get?_insert_of_ne _ _ hc.symm

theorem calls_pending_of_ne {cs : List (Instant × ReconnectCall)} (hcs : ∀ c ∈ cs, c.2.peer ≠ p) :
    (r.calls cs).pending.get? p = r.pending.get? p := by
  refine List.foldlRecOn cs _
    (motive := fun (r' : ReconnectBook) => r'.pending.get? p = r.pending.get? p) rfl
    fun r' hr' c hc => ?_
  exact (call_pending_of_ne c.1 (hcs c hc)).trans hr'

end ReconnectBook

end Punchgate
