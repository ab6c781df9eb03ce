import Punchgate.Node.Agreement

/-!
# What the swarm has reported

A ledger beside the loop records the connections the swarm has reported as
established and not yet as closed. It is compared with the books of the node: an open
direct connection is always tracked, and a requested disconnect never hits one.
-/

namespace Punchgate

/-- The connections the swarm has reported. -/
structure ConnectionLedger where
  /-- Every connection ever reported as established. -/
  known : Finset ConnectionId
  /-- The open connections, each with its peer and whether it is relayed. -/
  live : FiniteMap ConnectionId (PeerId × Bool)
  deriving DecidableEq

/-- The swarm event a pass serves. A loop that has ended serves none. -/
def NodeState.served {Sw : Type} (n : NodeState Sw) (input : LoopInput Sw) : Option SwarmEvent :=
  if n.app.phase = .shuttingDown then none
  else
    match input.branch with
    | .swarmEvent event _ _ => some event
    | _ => none

namespace ConnectionLedger

/-- The ledger before anything was reported. -/
def new : ConnectionLedger := ⟨∅, ∅⟩

/-- The ledger after a swarm event. -/
def record (l : ConnectionLedger) : SwarmEvent → ConnectionLedger
  | .connectionEstablished peer id endpoint =>
    ⟨insert id l.known, l.live.insert id (peer, endpoint.isRelayed)⟩
  | .connectionClosed _ id _ => { l with live := l.live.erase id }
  | _ => l

/-- The ledger after a pass. -/
def update {Sw : Type} (l : ConnectionLedger) (n : NodeState Sw) (input : LoopInput Sw)
    (_ : List Delivery) : ConnectionLedger :=
  match n.served input with
  | some event => l.record event
  | none => l

end ConnectionLedger

/-- The loop together with the ledger. -/
def nodeLedger {Sw : Type} (api : SwarmApi Sw) (cfg : NodeConfig) :
    Mealy.Machine (NodeState Sw × ConnectionLedger) (LoopInput Sw) Delivery :=
  (nodeLoop api cfg).withGhost ConnectionLedger.update

/-! ## The books after a pass -/

/-- Two links track the same connections. -/
def PeerLink.SameTracked (l l' : PeerLink) : Prop := l.relayed = l'.relayed ∧ l.direct = l'.direct

namespace NodeState

variable {Sw : Type} (api : SwarmApi Sw) (cfg : NodeConfig) (env : Env)

/-- The timer closes no connection. -/
theorem foldl_expireAttempt_conn (due : List (PeerId × ℕ)) (acc : NodeState Sw × List Delivery) :
    (due.foldl (expireAttempt api cfg env) acc).1.conn = acc.1.conn ∧
      ∀ d ∈ (due.foldl (expireAttempt api cfg env) acc).2, d ∈ acc.2 ∨ d.conn = acc.1.conn := by
  induction due generalizing acc with
  | nil => exact ⟨rfl, fun d hd => Or.inl hd⟩
  | cons e due ih =>
    obtain ⟨hconn, hdeliveries⟩ := ih (expireAttempt api cfg env acc e)
    have hone : (expireAttempt api cfg env acc e).1.conn = acc.1.conn ∧
        ∀ d ∈ (expireAttempt api cfg env acc e).2, d ∈ acc.2 ∨ d.conn = acc.1.conn := by
      unfold expireAttempt
      split
      · refine ⟨rfl, fun d hd => ?_⟩
        rcases List.mem_append.mp hd with hd | hd
        · exact Or.inl hd
        · rw [List.mem_singleton.mp hd]
          exact Or.inr rfl
      · exact ⟨rfl, fun d hd => Or.inl hd⟩
    refine ⟨hconn.trans hone.1, fun d hd => ?_⟩
    rcases hdeliveries d hd with hd | hd
    · exact hone.2 d hd
    · exact Or.inr (hd.trans hone.1)

/-- A reconnect leaves the books alone. -/
theorem onReconnectTimer_conn (n : NodeState Sw) : (n.onReconnectTimer api env).conn = n.conn := by
  obtain ⟨_, _, _, heq⟩ := onReconnectTimer_frame api env n
  rw [heq]

/-- After a pass, and at each of its deliveries, the books track what they do once the served
event is booked. -/
theorem pass_tracked (n : NodeState Sw) (input : LoopInput Sw) :
    ∃ c : ConnectionStateMachine,
      (match n.served input with
        | some event => ∃ synthetic, Booked n.conn n.app.tunnel event c synthetic
        | none => ∀ p, (c.link p).SameTracked (n.conn.link p)) ∧
      ∀ p, (((nodeLoop api cfg).step n input).1.conn.link p).SameTracked (c.link p) ∧
        ∀ d ∈ ((nodeLoop api cfg).step n input).2, (d.conn.link p).SameTracked (c.link p) := by
  change ∃ c : ConnectionStateMachine, _ ∧
    ∀ p, ((n.pass api cfg input.env input.branch).1.conn.link p).SameTracked (c.link p) ∧
      ∀ d ∈ (n.pass api cfg input.env input.branch).2, (d.conn.link p).SameTracked (c.link p)
  unfold served pass
  by_cases hphase : n.app.phase = .shuttingDown
  · rw [if_pos hphase, if_pos hphase]
    exact ⟨n.conn, fun p => ⟨rfl, rfl⟩, fun p => ⟨⟨rfl, rfl⟩, fun d hd => by cases hd⟩⟩
  · rw [if_neg hphase, if_neg hphase]
    cases hbranch : input.branch with
    | swarmEvent event swarm probe =>
      have hprepared := prepare_prepared api cfg input.env { n with swarm := swarm } event probe
      obtain ⟨synthetic, _, _, hbooked, _⟩ := hprepared.booked
      refine ⟨_, ⟨synthetic, hbooked⟩, fun p => ?_⟩
      have hyields := feedAll_yields api cfg input.env hprepared.failedAttempt (p := p)
        (J := fun x => x.link.SameTracked ((prepare api cfg input.env { n with swarm := swarm }
          event probe).1.conn.link p)) (fun _ _ hx _ => hx)
        (fun _ _ _ _ _ x y hx hy => by rw [hy.link_eq]; exact hx) _ ⟨rfl, rfl⟩
      refine ⟨hyields.slice, fun d hd => ?_⟩
      rcases List.mem_append.mp hd with hd | hd
      · rw [(hprepared.probed d hd).conn]
        exact ⟨rfl, rfl⟩
      · exact (hyields.upholds d hd).after
    | discoveryDeadline =>
      refine ⟨n.conn, fun p => ⟨rfl, rfl⟩, fun p => ?_⟩
      dsimp only
      split
      · exact ⟨⟨rfl, rfl⟩, fun d hd => by cases hd⟩
      · refine ⟨⟨rfl, rfl⟩, fun d hd => ?_⟩
        rw [List.mem_singleton.mp hd]
        exact ⟨rfl, rfl⟩
    | reconnectTimer =>
      refine ⟨n.conn, fun p => ⟨rfl, rfl⟩, fun p => ⟨?_, fun d hd => by cases hd⟩⟩
      dsimp only
      rw [onReconnectTimer_conn]
      exact ⟨rfl, rfl⟩
    | holePunchTimer =>
      refine ⟨(n.conn.takeDueHolePunchTimeouts input.env input.env.now).1, fun p => ?_, fun p => ?_⟩
      · rw [ConnectionStateMachine.takeDueHolePunchTimeouts_link]
        split <;> exact ⟨rfl, rfl⟩
      · obtain ⟨hconn, hdeliveries⟩ := foldl_expireAttempt_conn api cfg input.env
          (n.conn.takeDueHolePunchTimeouts input.env input.env.now).2
          ({ n with conn := (n.conn.takeDueHolePunchTimeouts input.env input.env.now).1 }, [])
        refine ⟨?_, fun d hd => ?_⟩
        · exact (congrArg (ConnectionStateMachine.link · p) hconn) ▸ ⟨rfl, rfl⟩
        · rcases hdeliveries d hd with hd | hd
          · cases hd
          · rw [hd]
            exact ⟨rfl, rfl⟩
    | shutdownSignal =>
      refine ⟨n.conn, fun p => ⟨rfl, rfl⟩, fun p => ⟨⟨rfl, rfl⟩, fun d hd => ?_⟩⟩
      rw [List.mem_singleton.mp hd]
      exact ⟨rfl, rfl⟩

end NodeState

/-! ## Open direct connections -/

/-- Every open direct connection is tracked. -/
def LiveDirectTracked (c : ConnectionStateMachine) (l : ConnectionLedger) : Prop :=
  ∀ id p, l.live.get? id = some (p, false) → ∃ ids, (c.link p).direct = some ids ∧ id ∈ ids

/-- Another connection than the removed one stays in a set. -/
theorem mem_removeFrom {ids : Finset ConnectionId} {id id' : ConnectionId} (h : id' ∈ ids)
    (hne : id' ≠ id) : ∃ rest, removeFrom (some ids) id = some rest ∧ id' ∈ rest := by
  have hmem : id' ∈ ids.erase id := Finset.mem_erase.mpr ⟨hne, h⟩
  refine ⟨ids.erase id, ?_, hmem⟩
  have hnonempty : ids.erase id ≠ ∅ := Finset.ne_empty_of_mem hmem
  simp [removeFrom, Option.filter, hnonempty]

/-- Booking an event keeps every open direct connection tracked. -/
theorem LiveDirectTracked.booked {c d : ConnectionStateMachine} {t : TunnelState}
    {l : ConnectionLedger} {event : SwarmEvent} {synthetic : List Event}
    (h : LiveDirectTracked c l) (hbooked : Booked c t event d synthetic) :
    LiveDirectTracked d (l.record event) := by
  have hestablished {q : PeerId} {id : ConnectionId} {endpoint : ConnectedPoint}
      (hkeep : ∀ p ids, (c.link p).direct = some ids →
        ∃ ids', (d.link p).direct = some ids' ∧ ids ⊆ ids')
      (hnew : endpoint.isRelayed = false → ∃ ids, (d.link q).direct = some ids ∧ id ∈ ids) :
      LiveDirectTracked d (l.record (.connectionEstablished q id endpoint)) := by
    intro id' p hlive
    by_cases hid : id' = id
    · subst hid
      rw [ConnectionLedger.record, FiniteMap.get?_insert_self] at hlive
      simp only [Option.some.injEq, Prod.mk.injEq] at hlive
      obtain ⟨rfl, hdirect⟩ := hlive
      exact hnew hdirect
    · rw [ConnectionLedger.record, FiniteMap.get?_insert_of_ne _ _ hid] at hlive
      obtain ⟨ids, hids, hmem⟩ := h id' p hlive
      obtain ⟨ids', hids', hsub⟩ := hkeep p ids hids
      exact ⟨ids', hids', hsub hmem⟩
  cases hbooked with
  | @relayedStarted q id endpoint _ a hrelayed _ _ hlink =>
    refine hestablished (fun p ids hids => ⟨ids, ?_, fun _ hmem => hmem⟩) fun hdirect => ?_
    · rw [hlink p]
      split <;> exact hids
    · rw [hrelayed] at hdirect
      cases hdirect
  | @relayed q id endpoint _ hrelayed _ hlink =>
    refine hestablished (fun p ids hids => ⟨ids, ?_, fun _ hmem => hmem⟩) fun hdirect => ?_
    · rw [hlink p]
      split <;> exact hids
    · rw [hrelayed] at hdirect
      cases hdirect
  | @direct q id endpoint _ _ hlink =>
    refine hestablished (fun p ids hids => ?_) fun _ =>
      ⟨insert id ((c.link q).direct.getD ∅), ?_, Finset.mem_insert_self _ _⟩
    · rw [hlink p]
      split
      · refine ⟨_, rfl, fun id' hmem => ?_⟩
        rw [hids]
        exact Finset.mem_insert_of_mem hmem
      · exact ⟨ids, hids, fun _ hmem => hmem⟩
    · rw [hlink q, if_pos rfl]
      rfl
  | @closed q id num _ hlink =>
    intro id' p hlive
    have hne : id' ≠ id := by
      rintro rfl
      rw [ConnectionLedger.record, FiniteMap.get?_erase_self] at hlive
      cases hlive
    rw [ConnectionLedger.record, FiniteMap.get?_erase_of_ne _ hne] at hlive
    obtain ⟨ids, hids, hmem⟩ := h id' p hlive
    rw [hlink p]
    split
    · rw [((c.link p).close_tracked id num).2, hids]
      exact mem_removeFrom hmem hne
    · exact ⟨ids, hids, hmem⟩
  | other hevent hlink =>
    have hrecord : l.record event = l := by
      cases event <;> first | rfl | cases hevent
    rw [hrecord]
    intro id p hlive
    rw [hlink p]
    exact h id p hlive

/-- A requested disconnect answers the failure of an attempt. -/
theorem PeerStep.failedAttempt_of_disconnect {s : TunnelState} {p : PeerId} {e : Event}
    {v : PeerView} {cs : List Command} (h : PeerStep s p e v cs)
    (hmem : .disconnectPeer p ∈ cs) : ∃ a, e.failedAttempt = some (p, a) := by
  have hspawn (specs : List Intent) : .disconnectPeer p ∉ spawnTunnels p specs := by
    simp [spawnTunnels]
  have hroute (v : PeerView) (specs : List Intent) : .disconnectPeer p ∉ (v.route p specs).2 := by
    unfold PeerView.route
    split
    · exact List.not_mem_nil
    · exact hspawn specs
  have hdial {c : Command} (hc : c.dials p = true) (hmem : .disconnectPeer p ∈ [c]) : False := by
    rw [← List.mem_singleton.mp hmem] at hc
    cases hc
  cases h with
  | resolvedConnected => exact absurd hmem (hroute _ _)
  | lookedUpConnected => exact absurd hmem (hroute _ _)
  | lookedUp =>
    split at hmem
    · cases List.mem_singleton.mp hmem
    · cases hmem
  | dialFailedRetried _ _ _ _ hc => exact absurd hmem fun h => hdial hc h
  | direct => exact absurd hmem (hspawn _)
  | retriesExhausted he => exact ⟨_, he⟩
  | retryScheduled he => exact ⟨_, he⟩
  | lostRedial _ hc => exact absurd hmem fun h => hdial hc h
  | lostAwaiting => cases List.mem_singleton.mp hmem
  | _ => cases hmem

namespace NodeState

variable {Sw : Type} (api : SwarmApi Sw) (cfg : NodeConfig) (env : Env)

/-- A pass keeps every open direct connection tracked. -/
theorem liveDirectTracked_step (x : NodeState Sw × ConnectionLedger) (input : LoopInput Sw)
    (h : LiveDirectTracked x.1.conn x.2) :
    LiveDirectTracked ((nodeLedger api cfg).step x input).1.1.conn
        ((nodeLedger api cfg).step x input).1.2 ∧
      ∀ d ∈ ((nodeLedger api cfg).step x input).2,
        LiveDirectTracked d.conn ((nodeLedger api cfg).step x input).1.2 := by
  obtain ⟨c, hserved, htracked⟩ := x.1.pass_tracked api cfg input
  have hc : LiveDirectTracked c (x.2.update x.1 input ((nodeLoop api cfg).step x.1 input).2) := by
    unfold ConnectionLedger.update
    cases hevent : x.1.served input with
    | none =>
      rw [hevent] at hserved
      intro id p hlive
      rw [(hserved p).2]
      exact h id p hlive
    | some event =>
      rw [hevent] at hserved
      obtain ⟨synthetic, hbooked⟩ := hserved
      exact h.booked hbooked
  refine ⟨fun id p hlive => ?_, fun d hd id p hlive => ?_⟩
  · obtain ⟨ids, hids, hmem⟩ := hc id p hlive
    exact ⟨ids, (htracked p).1.2.trans hids, hmem⟩
  · obtain ⟨ids, hids, hmem⟩ := hc id p hlive
    exact ⟨ids, ((htracked p).2 d hd).2.trans hids, hmem⟩

end NodeState

/-- **A disconnect never hits a live direct path.** Whenever the tunnel machine asks for a
disconnect of a peer in a run of the loop, no direct connection to the peer is open. -/
theorem disconnect_spares_direct {Sw : Type} (api : SwarmApi Sw) (cfg : NodeConfig) (env : Env)
    (natMapping : NatMapping) (swarm : Sw) (inputs : List (LoopInput Sw)) (input : LoopInput Sw)
    (p : PeerId) :
    let x := (nodeLedger api cfg).after (.start api cfg env natMapping swarm, .new) inputs
    ∀ d ∈ ((nodeLedger api cfg).step x input).2, .disconnectPeer p ∈ d.commands →
      ∀ id, ((nodeLedger api cfg).step x input).1.2.live.get? id ≠ some (p, false) := by
  intro x d hd hcommand id hlive
  have htracked : LiveDirectTracked x.1.conn x.2 :=
    Mealy.Machine.invariant
      (P := fun x : NodeState Sw × ConnectionLedger => LiveDirectTracked x.1.conn x.2) inputs
      (fun id p h => by cases h) fun x input hx =>
        (NodeState.liveDirectTracked_step api cfg x input hx).1
  obtain ⟨ids, hids, _⟩ :=
    (NodeState.liveDirectTracked_step api cfg x input htracked).2 d hd id p hlive
  have hsettled : Settled (x.1.slice p) := by
    have hfst : x.1 = (nodeLoop api cfg).after (.start api cfg env natMapping swarm) inputs :=
      Mealy.Machine.after_withGhost_fst _ inputs
    rw [hfst]
    exact NodeState.settled_after api cfg env natMapping swarm inputs p
  rcases x.1.upholds_of_mem_pass api cfg input hsettled hd with hupholds | ⟨_, _, _, hnone, _⟩
  · obtain ⟨a, ha⟩ := hupholds.step.failedAttempt_of_disconnect ((mem_commandsFor rfl).mpr hcommand)
    obtain ⟨hattempt, hagree⟩ := hupholds.failed a ha
    have hdirect : (d.conn.link p).attempt = none := by
      refine hagree.direct ?_
      change (d.conn.link p).direct.isSome = true
      rw [hids]
      rfl
    rw [hdirect] at hattempt
    cases hattempt
  · have hmem : .disconnectPeer p ∈ commandsFor p d.commands := (mem_commandsFor rfl).mpr hcommand
    rw [hnone p] at hmem
    cases hmem

/-- The timeout of a hole punch leads to such a request. -/
example : ∃ d ∈ (nodeLoop sampleApi mappedConfig).outputs
    (.start sampleApi mappedConfig .sorted .unknown ⟨[], 0⟩) mappedRun,
    .disconnectPeer ⟨1⟩ ∈ d.commands := by
  decide

end Punchgate
