import Punchgate.Node.Link
import Mathlib.Data.Set.Card

/-!
# Tracked connections

What connections a peer has can be read off the history of the calls that reported them. The
books hold exactly the open direct connections, and of the open relayed ones those that were
established after the latest direct one.
-/

namespace Punchgate

namespace ConnectionCall

/-- The connection that a call reports as established or closed. -/
def reported : ConnectionCall → Option ConnectionId
  | .onConnectionEstablished _ id _ | .onConnectionClosed _ id _ => some id
  | _ => none

/-- A call reports a connection as closed. -/
def closes (id : ConnectionId) : ConnectionCall → Bool
  | .onConnectionClosed _ closed _ => closed = id
  | _ => false

/-- A call reports a direct connection to a peer. -/
def opensDirect (p : PeerId) : ConnectionCall → Bool
  | .onConnectionEstablished peer _ false => peer = p
  | _ => false

/-- A call fits the calls before it: a connection is established once, and closed at most once
after that, always for the same peer. -/
def Fits (history : List ConnectionCall) : ConnectionCall → Prop
  | .onConnectionEstablished _ id _ => ∀ x ∈ history, x.reported ≠ some id
  | .onConnectionClosed p id _ =>
    (.onConnectionEstablished p id true ∈ history ∨ .onConnectionEstablished p id false ∈ history) ∧
      ∀ x ∈ history, x.closes id = false
  | _ => True

instance (history : List ConnectionCall) : DecidablePred (Fits history)
  | .onConnectionEstablished _ id _ =>
    inferInstanceAs (Decidable (∀ x ∈ history, x.reported ≠ some id))
  | .onConnectionClosed _ _ _ => inferInstanceAs (Decidable ((_ ∨ _) ∧ _))
  | .startHolePunchAttempt _ _ | .onDialing _ _ | .onOutgoingConnectionError _ _ _
  | .completeHolePunchAttempt _ | .takeDueHolePunchTimeouts _ => isTrue trivial

end ConnectionCall

/-- The direct connections of a peer that are open after some calls. -/
def OpenDirect (history : List ConnectionCall) (p : PeerId) (id : ConnectionId) : Prop :=
  .onConnectionEstablished p id false ∈ history ∧ ∀ x ∈ history, x.closes id = false

/-- The relayed connections of a peer that are open after some calls and were established after
the latest direct connection to the peer. -/
def OpenRelayedSinceDirect (history : List ConnectionCall) (p : PeerId) (id : ConnectionId) :
    Prop :=
  (∃ before after, history = before ++ .onConnectionEstablished p id true :: after ∧
      ∀ x ∈ after, x.opensDirect p = false) ∧
    ∀ x ∈ history, x.closes id = false

/-- The bookkeeping together with the history of its calls. -/
def ConnectionStateMachine.recorded :
    Mealy.Machine (ConnectionStateMachine × List ConnectionCall) (Env × ConnectionCall)
      ConnectionReply :=
  machine.withGhost fun history _ i _ => history ++ [i.2]

/-! ## One more call -/

section Concat

variable {history : List ConnectionCall} {x : ConnectionCall} {p : PeerId} {id : ConnectionId}

/-- A property of all calls, with one more call. -/
theorem forall_mem_concat {P : ConnectionCall → Prop} :
    (∀ y ∈ history ++ [x], P y) ↔ (∀ y ∈ history, P y) ∧ P x := by
  simp [or_imp, forall_and]

/-- The open direct connections after one more call. -/
theorem openDirect_concat :
    OpenDirect (history ++ [x]) p id ↔
      (OpenDirect history p id ∨ x = .onConnectionEstablished p id false ∧
        ∀ y ∈ history, y.closes id = false) ∧ x.closes id = false := by
  unfold OpenDirect
  rw [forall_mem_concat, List.mem_append, List.mem_singleton]
  constructor
  · rintro ⟨hmem | rfl, hopen, hx⟩
    · exact ⟨Or.inl ⟨hmem, hopen⟩, hx⟩
    · exact ⟨Or.inr ⟨rfl, hopen⟩, hx⟩
  · rintro ⟨⟨hmem, hopen⟩ | ⟨rfl, hopen⟩, hx⟩
    · exact ⟨Or.inl hmem, hopen, hx⟩
    · exact ⟨Or.inr rfl, hopen, hx⟩

/-- The open relayed connections since the latest direct one, after one more call. -/
theorem openRelayedSinceDirect_concat :
    OpenRelayedSinceDirect (history ++ [x]) p id ↔
      (OpenRelayedSinceDirect history p id ∧ x.opensDirect p = false ∨
        x = .onConnectionEstablished p id true ∧ ∀ y ∈ history, y.closes id = false) ∧
      x.closes id = false := by
  unfold OpenRelayedSinceDirect
  rw [forall_mem_concat]
  constructor
  · rintro ⟨⟨before, after, heq, hafter⟩, hopen, hx⟩
    refine ⟨?_, hx⟩
    rcases Mealy.concat_eq_append_cons.mp heq with ⟨rfl, rfl, rfl⟩ | ⟨rest, rfl, rfl⟩
    · exact Or.inr ⟨rfl, hopen⟩
    · rw [forall_mem_concat] at hafter
      exact Or.inl ⟨⟨⟨before, rest, rfl, hafter.1⟩, hopen⟩, hafter.2⟩
  · rintro ⟨⟨⟨⟨before, after, rfl, hafter⟩, hopen⟩, hdirect⟩ | ⟨rfl, hopen⟩, hx⟩
    · refine ⟨⟨before, after ++ [x], by simp, ?_⟩, hopen, hx⟩
      rw [forall_mem_concat]
      exact ⟨hafter, hdirect⟩
    · exact ⟨⟨history, [], rfl, by simp⟩, hopen, hx⟩

end Concat

/-- No connection is reported as established twice. -/
def EstablishedOnce (history : List ConnectionCall) : Prop :=
  ∀ id p p' relayed relayed', .onConnectionEstablished p id relayed ∈ history →
    .onConnectionEstablished p' id relayed' ∈ history → p = p' ∧ relayed = relayed'

/-- What the books hold for a peer is what the history says. -/
structure PeerLink.Tracks (l : PeerLink) (history : List ConnectionCall) (p : PeerId) : Prop where
  /-- The tracked direct connections are the open ones. -/
  direct : ∀ id, id ∈ l.direct.getD ∅ ↔ OpenDirect history p id
  /-- The tracked relayed connections are the open ones since the latest direct one. -/
  relayed : ∀ id, id ∈ l.relayed.getD ∅ ↔ OpenRelayedSinceDirect history p id
  /-- No empty set of direct connections is kept. -/
  direct_ne : l.direct ≠ some ∅
  /-- No empty set of relayed connections is kept. -/
  relayed_ne : l.relayed ≠ some ∅

section Step

variable {history : List ConnectionCall} {x : ConnectionCall} {p q : PeerId} {id : ConnectionId}
  {l l' : PeerLink}

/-- A call that does not report a connection does not report it as closed. -/
theorem closes_of_reported_ne (h : x.reported ≠ some id) : x.closes id = false := by
  cases x with
  | onConnectionClosed peer closed num => exact decide_eq_false fun heq => h (congrArg some heq)
  | _ => rfl

/-- A fitting call establishes no connection for a second time. -/
theorem EstablishedOnce.concat (h : EstablishedOnce history) (hx : x.Fits history) :
    EstablishedOnce (history ++ [x]) := by
  have hnew {id : ConnectionId} {p p' : PeerId} {relayed relayed' : Bool}
      (heq : x = .onConnectionEstablished p id relayed)
      (hmem : .onConnectionEstablished p' id relayed' ∈ history) : False := by
    subst heq
    exact hx _ hmem rfl
  intro id p p' relayed relayed' hp hp'
  rcases List.mem_append.mp hp with hp | hp <;> rcases List.mem_append.mp hp' with hp' | hp'
  · exact h id p p' relayed relayed' hp hp'
  · exact absurd hp fun hp => hnew (List.mem_singleton.mp hp').symm hp
  · exact absurd hp' fun hp' => hnew (List.mem_singleton.mp hp).symm hp'
  · have heq := (List.mem_singleton.mp hp).trans (List.mem_singleton.mp hp').symm
    simp only [ConnectionCall.onConnectionEstablished.injEq, true_and] at heq
    exact heq

/-- A call that changes neither the tracked connections of a peer nor the open ones. -/
theorem PeerLink.Tracks.frame (h : l.Tracks history p) (hdirect : l'.direct = l.direct)
    (hrelayed : l'.relayed = l.relayed)
    (hopens : ∀ id relayed, x ≠ .onConnectionEstablished p id relayed)
    (hcloses : ∀ id, (∃ relayed, .onConnectionEstablished p id relayed ∈ history) →
      x.closes id = false) : l'.Tracks (history ++ [x]) p := by
  have hsame : x.opensDirect p = false := by
    cases x with
    | onConnectionEstablished peer id relayed =>
      cases relayed with
      | true => rfl
      | false =>
        refine decide_eq_false ?_
        rintro rfl
        exact hopens id false rfl
    | _ => rfl
  constructor
  case direct =>
    intro id
    rw [hdirect, h.direct, openDirect_concat]
    constructor
    · intro hopen
      exact ⟨Or.inl hopen, hcloses id ⟨_, hopen.1⟩⟩
    · rintro ⟨hopen | ⟨heq, _⟩, _⟩
      · exact hopen
      · exact absurd heq (hopens id false)
  case relayed =>
    intro id
    rw [hrelayed, h.relayed, openRelayedSinceDirect_concat]
    constructor
    · intro hopen
      obtain ⟨before, after, heq, _⟩ := hopen.1
      exact ⟨Or.inl ⟨hopen, hsame⟩, hcloses id ⟨true, by simp [heq]⟩⟩
    · rintro ⟨⟨hopen, _⟩ | ⟨heq, _⟩, _⟩
      · exact hopen
      · exact absurd heq (hopens id true)
  case direct_ne =>
    rw [hdirect]
    exact h.direct_ne
  case relayed_ne =>
    rw [hrelayed]
    exact h.relayed_ne

/-- A relayed connection joins the tracked ones. -/
theorem PeerLink.Tracks.openRelayed (h : l.Tracks history p)
    (hx : ∀ y ∈ history, y.reported ≠ some id) :
    (l.openRelayed id).Tracks (history ++ [.onConnectionEstablished p id true]) p := by
  have hopen : ∀ y ∈ history, y.closes id = false := fun y hy => closes_of_reported_ne (hx y hy)
  constructor
  case direct =>
    intro id'
    rw [openDirect_concat]
    refine (h.direct id').trans ⟨fun h' => ⟨Or.inl h', rfl⟩, ?_⟩
    rintro ⟨h' | ⟨heq, _⟩, _⟩
    · exact h'
    · cases heq
  case relayed =>
    intro id'
    rw [openRelayedSinceDirect_concat]
    change id' ∈ insert id (l.relayed.getD ∅) ↔ _
    rw [Finset.mem_insert, h.relayed]
    constructor
    · rintro (rfl | h')
      · exact ⟨Or.inr ⟨rfl, hopen⟩, rfl⟩
      · exact ⟨Or.inl ⟨h', rfl⟩, rfl⟩
    · rintro ⟨⟨h', _⟩ | ⟨heq, _⟩, _⟩
      · exact Or.inr h'
      · cases heq
        exact Or.inl rfl
  case direct_ne => exact h.direct_ne
  case relayed_ne =>
    intro heq
    exact Finset.insert_ne_empty _ _ (Option.some.inj heq)

/-- A direct connection joins the tracked ones and displaces the relayed ones. -/
theorem PeerLink.Tracks.openDirect (h : l.Tracks history p)
    (hx : ∀ y ∈ history, y.reported ≠ some id) :
    (l.openDirect id).Tracks (history ++ [.onConnectionEstablished p id false]) p := by
  have hopen : ∀ y ∈ history, y.closes id = false := fun y hy => closes_of_reported_ne (hx y hy)
  constructor
  case direct =>
    intro id'
    rw [openDirect_concat]
    change id' ∈ insert id (l.direct.getD ∅) ↔ _
    rw [Finset.mem_insert, h.direct]
    constructor
    · rintro (rfl | h')
      · exact ⟨Or.inr ⟨rfl, hopen⟩, rfl⟩
      · exact ⟨Or.inl h', rfl⟩
    · rintro ⟨h' | ⟨heq, _⟩, _⟩
      · exact Or.inr h'
      · cases heq
        exact Or.inl rfl
  case relayed =>
    intro id'
    rw [openRelayedSinceDirect_concat]
    refine iff_of_false (Finset.notMem_empty id') ?_
    rintro ⟨⟨_, hdirect⟩ | ⟨heq, _⟩, _⟩
    · simp [ConnectionCall.opensDirect] at hdirect
    · cases heq
  case direct_ne =>
    intro heq
    exact Finset.insert_ne_empty _ _ (Option.some.inj heq)
  case relayed_ne =>
    intro heq
    cases heq

/-- A closed connection leaves the tracked ones. -/
theorem PeerLink.Tracks.close (h : l.Tracks history p) (num : UInt32) :
    (l.close id num).Tracks (history ++ [.onConnectionClosed p id num]) p := by
  obtain ⟨hrelayed, hdirect⟩ := l.close_tracked id num
  have hcloses (id' : ConnectionId) :
      (ConnectionCall.onConnectionClosed p id num).closes id' = false ↔ id' ≠ id :=
    decide_eq_false_iff_not.trans (not_congr eq_comm)
  constructor
  case direct =>
    intro id'
    rw [hdirect, mem_getD_removeFrom, h.direct, openDirect_concat, hcloses]
    simp
  case relayed =>
    intro id'
    rw [hrelayed, mem_getD_removeFrom, h.relayed, openRelayedSinceDirect_concat, hcloses]
    simp [ConnectionCall.opensDirect]
  case direct_ne =>
    rw [hdirect]
    exact removeFrom_ne_empty _ _
  case relayed_ne =>
    rw [hrelayed]
    exact removeFrom_ne_empty _ _

end Step

/-! ## Runs -/

namespace ConnectionStateMachine

variable {history : List ConnectionCall} {c : ConnectionStateMachine} {x : ConnectionCall}

/-- Calls that report no connection leave the tracked ones alone. -/
theorem call_tracked_of_reported_none (env : Env) (c : ConnectionStateMachine) (p : PeerId)
    (hx : x.reported = none) :
    ((c.call env x).1.link p).direct = (c.link p).direct ∧
      ((c.call env x).1.link p).relayed = (c.link p).relayed := by
  cases x with
  | onConnectionEstablished => cases hx
  | onConnectionClosed => cases hx
  | startHolePunchAttempt q timeout =>
    rcases c.startHolePunchAttempt_cases env q timeout with ⟨_, heq⟩ | ⟨_, d, a, heq, hlink⟩
    · rw [call, heq]
      exact ⟨rfl, rfl⟩
    · rw [call, heq]
      dsimp only
      rw [hlink]
      split <;> exact ⟨rfl, rfl⟩
  | onDialing q id =>
    have hlink := onDialing_link c p q id
    exact ⟨congrArg PeerLink.direct hlink, congrArg PeerLink.relayed hlink⟩
  | onOutgoingConnectionError q id text =>
    have hlink := onOutgoingConnectionError_link c p q id text
    exact ⟨congrArg PeerLink.direct hlink, congrArg PeerLink.relayed hlink⟩
  | completeHolePunchAttempt q => exact ⟨rfl, rfl⟩
  | takeDueHolePunchTimeouts now => exact ⟨rfl, rfl⟩

/-- A fitting call keeps the tracked connections exact. -/
theorem tracks_call (env : Env) (h : ∀ p, (c.link p).Tracks history p)
    (honce : EstablishedOnce history) (hx : x.Fits history) (p : PeerId) :
    ((c.call env x).1.link p).Tracks (history ++ [x]) p := by
  cases hreported : x.reported with
  | none =>
    obtain ⟨hdirect, hrelayed⟩ := call_tracked_of_reported_none env c p hreported
    refine (h p).frame hdirect hrelayed ?_ fun id _ => closes_of_reported_ne ?_
    · rintro id relayed rfl
      cases hreported
    · rw [hreported]
      simp
  | some _ =>
    cases x with
    | onConnectionEstablished q id relayed =>
      simp only [call, onConnectionEstablished_link]
      by_cases hp : p = q
      · subst hp
        rw [if_pos rfl]
        cases relayed with
        | true => exact (h p).openRelayed hx
        | false => exact (h p).openDirect hx
      · rw [if_neg hp]
        refine (h p).frame rfl rfl ?_ fun _ _ => rfl
        rintro _ _ heq
        cases heq
        exact hp rfl
    | onConnectionClosed q id num =>
      simp only [call, onConnectionClosed_link]
      by_cases hp : p = q
      · subst hp
        rw [if_pos rfl]
        exact (h p).close num
      · rw [if_neg hp]
        refine (h p).frame rfl rfl (fun _ _ => ConnectionCall.noConfusion) ?_
        -- A connection belongs to one peer, so the closed one is none of this peer's.
        rintro id' ⟨relayed, hmem⟩
        refine decide_eq_false ?_
        rintro rfl
        rcases hx.1 with hq | hq
        · exact hp (honce id p q _ _ hmem hq).1
        · exact hp (honce id p q _ _ hmem hq).1
    | _ => cases hreported

/-- The recorded history is the list of calls. -/
theorem recorded_history (calls : List (Env × ConnectionCall)) :
    (recorded.after (new, []) calls).2 = calls.map Prod.snd := by
  induction calls using List.reverseRecOn with
  | nil => rfl
  | append_singleton calls i ih =>
    rw [Mealy.Machine.after_concat, List.map_append, ← ih]
    rfl

/-- **Exact tracking.** If every connection is reported as established once, for one peer, and as
closed at most once after that, the books hold exactly the open direct connections of every peer
and its open relayed ones since the latest direct one, whatever else is called. -/
theorem tracking_exact (calls : List (Env × ConnectionCall))
    (hcalls : recorded.Guarded (fun x i => i.2.Fits x.2) (new, []) calls) (p : PeerId) :
    let c := machine.after new calls
    let history := calls.map Prod.snd
    (∀ id, id ∈ c.directConnections.getD p ∅ ↔ OpenDirect history p id) ∧
    (∀ id, id ∈ c.relayedConnections.getD p ∅ ↔ OpenRelayedSinceDirect history p id) ∧
    c.directConnections.get? p ≠ some ∅ ∧ c.relayedConnections.get? p ≠ some ∅ ∧
    (c.peerIsRelayOnly p = true ↔
      (∃ id, OpenRelayedSinceDirect history p id) ∧ ¬∃ id, OpenDirect history p id) ∧
    c.directConnectionCount p = {id | OpenDirect history p id}.ncard ∧
    c.relayedConnectionCount p = {id | OpenRelayedSinceDirect history p id}.ncard := by
  intro c history
  have hrun : (∀ p, ((recorded.after (new, []) calls).1.link p).Tracks
        (recorded.after (new, []) calls).2 p) ∧
      EstablishedOnce (recorded.after (new, []) calls).2 := by
    refine hcalls.invariant
      (P := fun x => (∀ p, (x.1.link p).Tracks x.2 p) ∧ EstablishedOnce x.2) ⟨fun p => ?_, ?_⟩ ?_
    · constructor
      case direct => exact fun id => iff_of_false (Finset.notMem_empty id) fun h => by cases h.1
      case relayed =>
        refine fun id => iff_of_false (Finset.notMem_empty id) ?_
        rintro ⟨⟨before, after, heq, _⟩, _⟩
        simp at heq
      case direct_ne => exact fun h => by cases h
      case relayed_ne => exact fun h => by cases h
    · exact fun id p p' relayed relayed' h => by cases h
    · exact fun x i hx hi => ⟨tracks_call i.1 hx.1 hx.2 hi, hx.2.concat hi⟩
  have hstate : (recorded.after (new, []) calls).1 = c := Mealy.Machine.after_withGhost_fst _ calls
  have htracks : (c.link p).Tracks history p := by
    have hp := hrun.1 p
    rw [recorded_history, hstate] at hp
    exact hp
  have hsome {ids : Option (Finset ConnectionId)} (hne : ids ≠ some ∅) :
      ids.isSome = true ↔ ∃ id, id ∈ ids.getD ∅ := by
    cases ids with
    | none => simp
    | some ids =>
      have hids : ids ≠ ∅ := fun h => hne (congrArg some h)
      have hnonempty : ids.Nonempty := Finset.nonempty_iff_ne_empty.mpr hids
      exact iff_of_true rfl hnonempty
  refine ⟨htracks.direct, htracks.relayed, htracks.direct_ne, htracks.relayed_ne, ?_, ?_, ?_⟩
  · rw [peerIsRelayOnly_eq, PeerLink.relayOnly, Bool.and_eq_true, Bool.not_eq_true',
      ← Bool.not_eq_true, hsome htracks.relayed_ne, hsome htracks.direct_ne]
    simp only [htracks.relayed, htracks.direct]
  · have hset : {id | OpenDirect history p id} = ↑((c.link p).direct.getD ∅) := by
      ext id
      exact (htracks.direct id).symm
    rw [hset, Set.ncard_coe_finset]
    rfl
  · have hset : {id | OpenRelayedSinceDirect history p id} = ↑((c.link p).relayed.getD ∅) := by
      ext id
      exact (htracks.relayed id).symm
    rw [hset, Set.ncard_coe_finset]
    rfl

/-- A relayed connection, a direct one, another relayed one, and the direct one closes with a
stale count. -/
def relayedAgain : List (Env × ConnectionCall) :=
  [.onConnectionEstablished ⟨1⟩ ⟨1⟩ true, .onConnectionEstablished ⟨1⟩ ⟨2⟩ false,
    .onConnectionEstablished ⟨1⟩ ⟨3⟩ true, .onDialing ⟨1⟩ ⟨3⟩,
    .onConnectionClosed ⟨1⟩ ⟨2⟩ 0].map (Env.sorted, ·)

/-- Only the last relayed connection is tracked in the end, and the peer is relayed only. -/
theorem tracking_exact_relayed_again :
    (machine.after new relayedAgain).peerIsRelayOnly ⟨1⟩ = true ∧
      {id | OpenRelayedSinceDirect (relayedAgain.map Prod.snd) ⟨1⟩ id}.ncard = 1 := by
  have hexact := tracking_exact relayedAgain (by decide) ⟨1⟩
  exact ⟨by decide, hexact.2.2.2.2.2.2.symm.trans (by decide)⟩

end ConnectionStateMachine

end Punchgate
