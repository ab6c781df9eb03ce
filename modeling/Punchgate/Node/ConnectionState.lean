import Punchgate.Library.Mealy
import Punchgate.Types

/-!
# Connection bookkeeping

`ConnectionStateMachine` tracks which connections of a peer are open, relayed or
direct, and the hole-punch attempt that runs while a peer is reachable over a relay
only.
-/

namespace Punchgate

/-- `HolePunchAttemptStats`. -/
structure HolePunchAttemptStats where
  /-- The id of the attempt. -/
  attemptId : ℕ
  /-- When the attempt was started. -/
  startedAt : Instant
  /-- Dials counted for the attempt. -/
  dialsStarted : ℕ
  /-- Failed dials counted for the attempt. -/
  dialsFailed : ℕ
  /-- The text of the last dial error. -/
  lastDialError : Option String
  deriving DecidableEq

/-- `HolePunchAttemptStats::new`. -/
def HolePunchAttemptStats.new (env : Env) (attemptId : ℕ) : HolePunchAttemptStats :=
  ⟨attemptId, env.now, 0, 0, none⟩

/-- `HolePunchDeadline`. -/
structure HolePunchDeadline where
  /-- The attempt the deadline belongs to. -/
  attemptId : ℕ
  /-- When the attempt times out. -/
  deadline : Instant
  deriving DecidableEq

/-- `ConnectionEstablishedUpdate`. -/
structure ConnectionEstablishedUpdate where
  /-- An attempt started by the new connection. -/
  startedAttemptId : Option ℕ
  /-- The attempt completed by a direct connection. -/
  completedAttempt : Option HolePunchAttemptStats
  /-- Relayed connections that a direct one makes superfluous. -/
  relayedConnectionsToClose : List ConnectionId
  /-- The new connection is direct. -/
  directConnectionEstablished : Bool

/-- `ConnectionClosedUpdate`. -/
structure ConnectionClosedUpdate where
  /-- The peer leaves the registry of directly connected peers. -/
  clearDirectRegistry : Bool
  /-- No connection to the peer is left. -/
  peerFullyDisconnected : Bool

/-- `DialingUpdate`. -/
inductive DialingUpdate
  | tracked (attemptId attempt : ℕ)
  | relayOnlyWithoutActiveAttempt
  | ignored

/-- `OutgoingErrorUpdate`. -/
inductive OutgoingErrorUpdate
  | tracked (peer : PeerId) (attemptId attempt failures : ℕ)
  | staleTracked (peer : PeerId) (expectedAttempt receivedAttempt : ℕ)
  | relayOnlyUntracked (peer : PeerId)
  | ignored

/-- `ConnectionStateMachine`. -/
structure ConnectionStateMachine where
  /-- The tracked relayed connections of each peer. -/
  relayedConnections : FiniteMap PeerId (Finset ConnectionId)
  /-- The tracked direct connections of each peer. -/
  directConnections : FiniteMap PeerId (Finset ConnectionId)
  /-- The pending deadline of each peer. -/
  holePunchDeadlines : FiniteMap PeerId HolePunchDeadline
  /-- The active attempt of each peer. -/
  holePunchAttempts : FiniteMap PeerId HolePunchAttemptStats
  /-- The last attempt id issued for each peer. -/
  holePunchAttemptSeq : FiniteMap PeerId ℕ
  /-- The dials in flight that count for an attempt. -/
  pendingHolePunchDials : FiniteMap ConnectionId (PeerId × ℕ)
  deriving DecidableEq

namespace ConnectionStateMachine

/-- `ConnectionStateMachine::new`. -/
def new : ConnectionStateMachine := ⟨∅, ∅, ∅, ∅, ∅, ∅⟩

/-- `ConnectionStateMachine::has_relayed_connection`. -/
def hasRelayedConnection (c : ConnectionStateMachine) (peer : PeerId) : Bool :=
  c.relayedConnections.contains peer

/-- `ConnectionStateMachine::has_direct_connection`. -/
def hasDirectConnection (c : ConnectionStateMachine) (peer : PeerId) : Bool :=
  c.directConnections.contains peer

/-- `ConnectionStateMachine::peer_is_relay_only`. -/
def peerIsRelayOnly (c : ConnectionStateMachine) (peer : PeerId) : Bool :=
  c.hasRelayedConnection peer && !c.hasDirectConnection peer

/-- `ConnectionStateMachine::direct_connection_count`. -/
def directConnectionCount (c : ConnectionStateMachine) (peer : PeerId) : ℕ :=
  (c.directConnections.getD peer ∅).card

/-- `ConnectionStateMachine::relayed_connection_count`. -/
def relayedConnectionCount (c : ConnectionStateMachine) (peer : PeerId) : ℕ :=
  (c.relayedConnections.getD peer ∅).card

/-- `ConnectionStateMachine::active_attempt_stats`. -/
def activeAttemptStats (c : ConnectionStateMachine) (peer : PeerId) :
    Option HolePunchAttemptStats :=
  c.holePunchAttempts.get? peer

/-- `ConnectionStateMachine::remove_pending_hole_punch_dials_for_peer`. -/
def removePendingHolePunchDialsForPeer (c : ConnectionStateMachine) (peer : PeerId) :
    ConnectionStateMachine :=
  { c with
    pendingHolePunchDials := c.pendingHolePunchDials.filter fun _ dial => dial.1 ≠ peer }

/-- `ConnectionStateMachine::complete_hole_punch_attempt`; the removed attempt is read
off the state before. -/
def completeHolePunchAttempt (c : ConnectionStateMachine) (peer : PeerId) :
    ConnectionStateMachine :=
  { c with
    holePunchAttempts := c.holePunchAttempts.erase peer
    holePunchDeadlines := c.holePunchDeadlines.erase peer
    : ConnectionStateMachine }.removePendingHolePunchDialsForPeer peer

/-- `ConnectionStateMachine::on_connection_established`. -/
def onConnectionEstablished (env : Env) (c : ConnectionStateMachine) (peer : PeerId)
    (connectionId : ConnectionId) (relayed : Bool) :
    ConnectionStateMachine × ConnectionEstablishedUpdate :=
  let c := { c with pendingHolePunchDials := c.pendingHolePunchDials.erase connectionId }
  match relayed with
  | true =>
    ({ c with
      relayedConnections := c.relayedConnections.insert peer
        (insert connectionId (c.relayedConnections.getD peer ∅)) },
      ⟨none, none, [], false⟩)
  | false =>
    let c := { c with
      directConnections := c.directConnections.insert peer
        (insert connectionId (c.directConnections.getD peer ∅)) }
    let completed := c.activeAttemptStats peer
    let toClose := env.connectionOrder.toList (c.relayedConnections.getD peer ∅)
    let c := c.completeHolePunchAttempt peer
    ({ c with relayedConnections := c.relayedConnections.erase peer },
      ⟨none, completed, toClose, true⟩)

/-- `ConnectionStateMachine::next_hole_punch_attempt_id`. -/
def nextHolePunchAttemptId (c : ConnectionStateMachine) (peer : PeerId) : ℕ :=
  saturatingAdd u64Max (c.holePunchAttemptSeq.getD peer 0) 1

/-- `ConnectionStateMachine::start_hole_punch_attempt`. -/
def startHolePunchAttempt (env : Env) (c : ConnectionStateMachine) (peer : PeerId)
    (holePunchTimeout : Duration) : ConnectionStateMachine × Option ℕ :=
  if !c.peerIsRelayOnly peer || c.holePunchAttempts.contains peer then (c, none)
  else
    let attemptId := c.nextHolePunchAttemptId peer
    ({ c with
      holePunchAttemptSeq := c.holePunchAttemptSeq.insert peer attemptId
      holePunchAttempts := c.holePunchAttempts.insert peer (.new env attemptId)
      holePunchDeadlines := c.holePunchDeadlines.insert peer
        ⟨attemptId, env.now + holePunchTimeout⟩ }, some attemptId)

/-- `ConnectionStateMachine::remove_connection_id`: the map without the connection, and
whether that was the last one of the peer. -/
def removeConnectionId (byPeer : FiniteMap PeerId (Finset ConnectionId)) (peer : PeerId)
    (connectionId : ConnectionId) : FiniteMap PeerId (Finset ConnectionId) × Bool :=
  match byPeer.get? peer with
  | some ids =>
    if ids.erase connectionId = ∅ then (byPeer.erase peer, true)
    else (byPeer.insert peer (ids.erase connectionId), false)
  | none => (byPeer, false)

/-- `ConnectionStateMachine::on_connection_closed`. -/
def onConnectionClosed (c : ConnectionStateMachine) (peer : PeerId)
    (connectionId : ConnectionId) (numEstablished : UInt32) :
    ConnectionStateMachine × ConnectionClosedUpdate :=
  let direct := removeConnectionId c.directConnections peer connectionId
  let c := { c with
    pendingHolePunchDials := c.pendingHolePunchDials.erase connectionId
    relayedConnections := (removeConnectionId c.relayedConnections peer connectionId).1
    directConnections := direct.1 }
  let trackedConnectionAlive := c.hasRelayedConnection peer || c.hasDirectConnection peer
  let peerFullyDisconnected := decide (numEstablished = 0) && !trackedConnectionAlive
  let c' := c.completeHolePunchAttempt peer
  (if peerFullyDisconnected then
      { c' with
        relayedConnections := c'.relayedConnections.erase peer
        directConnections := c'.directConnections.erase peer }
    else c,
    ⟨direct.2 || peerFullyDisconnected, peerFullyDisconnected⟩)

/-- `ConnectionStateMachine::on_dialing`. -/
def onDialing (c : ConnectionStateMachine) (peer : PeerId) (connectionId : ConnectionId) :
    ConnectionStateMachine × DialingUpdate :=
  if !c.peerIsRelayOnly peer then (c, .ignored)
  else
    match c.holePunchAttempts.get? peer with
    | some stats =>
      let attempt := saturatingAdd u32Max stats.dialsStarted 1
      ({ c with
        holePunchAttempts := c.holePunchAttempts.insert peer { stats with dialsStarted := attempt }
        pendingHolePunchDials :=
          c.pendingHolePunchDials.insert connectionId (peer, stats.attemptId) },
        .tracked stats.attemptId attempt)
    | none => (c, .relayOnlyWithoutActiveAttempt)

/-- The attempt of `on_outgoing_connection_error` for a tracked dial of a relayed-only peer. -/
def failTrackedDial (c : ConnectionStateMachine) (peer : PeerId) (attemptId : ℕ)
    (errorText : String) : ConnectionStateMachine × OutgoingErrorUpdate :=
  match c.holePunchAttempts.get? peer with
  | some stats =>
    if stats.attemptId = attemptId then
      let failures := saturatingAdd u32Max stats.dialsFailed 1
      ({ c with
        holePunchAttempts := c.holePunchAttempts.insert peer
          { stats with dialsFailed := failures, lastDialError := some errorText } },
        .tracked peer attemptId stats.dialsStarted failures)
    else (c, .staleTracked peer stats.attemptId attemptId)
  | none => (c, .relayOnlyUntracked peer)

/-- `ConnectionStateMachine::on_outgoing_connection_error`. -/
def onOutgoingConnectionError (c : ConnectionStateMachine) (peerId : Option PeerId)
    (connectionId : ConnectionId) (errorText : String) :
    ConnectionStateMachine × OutgoingErrorUpdate :=
  let result :=
    match c.pendingHolePunchDials.get? connectionId with
    | some (peer, attemptId) =>
      if c.peerIsRelayOnly peer then c.failTrackedDial peer attemptId errorText
      else (c, .ignored)
    | none =>
      match peerId.filter c.peerIsRelayOnly with
      | some peer => (c, .relayOnlyUntracked peer)
      | none => (c, .ignored)
  ({ result.1 with
    pendingHolePunchDials := result.1.pendingHolePunchDials.erase connectionId }, result.2)

/-- `ConnectionStateMachine::next_hole_punch_deadline`. -/
def nextHolePunchDeadline (env : Env) (c : ConnectionStateMachine) : Option Instant :=
  ((c.holePunchDeadlines.entries env.peerOrder).map fun e => e.2.deadline).min?

/-- `ConnectionStateMachine::take_due_hole_punch_timeouts`. -/
def takeDueHolePunchTimeouts (env : Env) (c : ConnectionStateMachine) (now : Instant) :
    ConnectionStateMachine × List (PeerId × ℕ) :=
  let due := ((c.holePunchDeadlines.entries env.peerOrder).filter fun e => e.2.deadline ≤ now).map
    fun e => (e.1, e.2.attemptId)
  ({ c with
    holePunchDeadlines := due.foldl (fun deadlines e => deadlines.erase e.1) c.holePunchDeadlines },
    due)

end ConnectionStateMachine

/-- One call of a public method that changes the bookkeeping. -/
inductive ConnectionCall
  | onConnectionEstablished (peer : PeerId) (connectionId : ConnectionId) (relayed : Bool)
  | startHolePunchAttempt (peer : PeerId) (holePunchTimeout : Duration)
  | onConnectionClosed (peer : PeerId) (connectionId : ConnectionId) (numEstablished : UInt32)
  | onDialing (peer : PeerId) (connectionId : ConnectionId)
  | onOutgoingConnectionError (peerId : Option PeerId) (connectionId : ConnectionId)
      (errorText : String)
  | completeHolePunchAttempt (peer : PeerId)
  | takeDueHolePunchTimeouts (now : Instant)
  deriving DecidableEq

/-- What a call returns. -/
inductive ConnectionReply
  | established (update : ConnectionEstablishedUpdate)
  | attemptStarted (peer : PeerId) (attemptId : Option ℕ)
  | closed (update : ConnectionClosedUpdate)
  | dialing (update : DialingUpdate)
  | outgoingError (update : OutgoingErrorUpdate)
  | attemptCompleted (completed : Option HolePunchAttemptStats)
  | dueTimeouts (due : List (PeerId × ℕ))

namespace ConnectionStateMachine

/-- The effect of a call, and what it returns. -/
def call (env : Env) (c : ConnectionStateMachine) :
    ConnectionCall → ConnectionStateMachine × ConnectionReply
  | .onConnectionEstablished peer connectionId relayed =>
    let (c, update) := c.onConnectionEstablished env peer connectionId relayed
    (c, .established update)
  | .startHolePunchAttempt peer holePunchTimeout =>
    let (c, attemptId) := c.startHolePunchAttempt env peer holePunchTimeout
    (c, .attemptStarted peer attemptId)
  | .onConnectionClosed peer connectionId numEstablished =>
    let (c, update) := c.onConnectionClosed peer connectionId numEstablished
    (c, .closed update)
  | .onDialing peer connectionId =>
    let (c, update) := c.onDialing peer connectionId
    (c, .dialing update)
  | .onOutgoingConnectionError peerId connectionId errorText =>
    let (c, update) := c.onOutgoingConnectionError peerId connectionId errorText
    (c, .outgoingError update)
  | .completeHolePunchAttempt peer =>
    (c.completeHolePunchAttempt peer, .attemptCompleted (c.activeAttemptStats peer))
  | .takeDueHolePunchTimeouts now =>
    let (c, due) := c.takeDueHolePunchTimeouts env now
    (c, .dueTimeouts due)

/-- The bookkeeping as a Mealy machine: every input is a call together with the environment it
is made in. -/
def machine : Mealy.Machine ConnectionStateMachine (Env × ConnectionCall) ConnectionReply where
  step c i := ((c.call i.1 i.2).1, [(c.call i.1 i.2).2])

end ConnectionStateMachine

end Punchgate
