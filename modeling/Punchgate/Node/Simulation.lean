import Punchgate.Library.Simulation
import Punchgate.Node.Delivery
import Punchgate.Node.Prepare
import Punchgate.State.Publishing

/-!
# The loop and its state machine

The loop keeps many books beside its state machine. It changes the machine only by delivering
events, and it executes what the machine answers. A run of the node is therefore a run of the
machine on the events that are delivered, and everything that holds of the machine on its own holds
in the node.
-/

namespace Punchgate

namespace Delivery

/-- The input that a delivery is to the state machine. -/
def input (env : Env) (d : Delivery) : Env × Event := (env, d.event)

end Delivery

namespace NodeState

variable {Sw : Type} (api : SwarmApi Sw) (cfg : NodeConfig) (env : Env)

/-- A part of a pass is a run of the state machine on what it delivers. -/
structure Follows (n : NodeState Sw) (r : NodeState Sw × List Delivery) : Prop where
  /-- The machine ends where the part ends. -/
  after : AppState.machine.after n.app (r.2.map (·.input env)) = r.1.app
  /-- The commands are those that are executed. -/
  outputs : AppState.machine.outputs n.app (r.2.map (·.input env)) = r.2.flatMap (·.commands)

variable {env} {n m l : NodeState Sw} {ds es : List Delivery}

/-- Nothing is delivered. -/
theorem Follows.of_app (h : m.app = n.app) : Follows env n (m, []) := ⟨h.symm, rfl⟩

/-- One part after another. -/
theorem Follows.append (h : Follows env n (m, ds)) (h' : Follows env m (l, es)) :
    Follows env n (l, ds ++ es) where
  after := by
    rw [List.map_append, Mealy.Machine.after_append, h.after]
    exact h'.after
  outputs := by
    rw [List.map_append, Mealy.Machine.outputs_append, h.after, h.outputs, h'.outputs,
      List.flatMap_append]

/-- A part that begins with the same state machine. -/
theorem Follows.of_same {r : NodeState Sw × List Delivery} (happ : m.app = n.app)
    (h : Follows env m r) : Follows env n r := ⟨happ ▸ h.after, happ ▸ h.outputs⟩

variable (env)

/-- A delivery is one step. -/
theorem follows_deliver (source : DeliverySource) (n : NodeState Sw) (e : Event) :
    Follows env n ((deliver api cfg env source n e).1, [(deliver api cfg env source n e).2]) where
  after := rfl
  outputs := by
    rw [List.flatMap_singleton]
    exact List.append_nil _

/-- Arming delivers the attempts that it starts. -/
theorem follows_arm (n : NodeState Sw) :
    Follows env n (n.armHolePunchForTunnelTargets api cfg env) := by
  unfold armHolePunchForTunnelTargets
  split
  · exact .of_app rfl
  · refine List.foldlRecOn (n.app.tunnel.holepunchTargetPeers env) (armPeer api cfg env)
      (motive := fun acc => Follows env n acc) (b := (n, [])) (.of_app rfl) fun acc hacc q _ => ?_
    rcases armPeer_cases api cfg env acc q with ⟨_, heq⟩ | ⟨_, conn, a, _, heq⟩
    · rw [heq]
      exact hacc
    · rw [heq]
      refine hacc.append (.of_same ?_ (follows_deliver api cfg env .arming _ _))
      rfl

/-- An event of the list is delivered, and what it arms. -/
theorem follows_feed (n : NodeState Sw) (e : Event) : Follows env n (n.feed api cfg env e) := by
  unfold feed
  split
  · exact .of_app rfl
  · rename_i e' _
    have hdeliver := follows_deliver api cfg env .eventList (n.observeIdentify api cfg e') e'
    exact (hdeliver.of_same (observeIdentify_frame api cfg n e').2).append
      (follows_arm api cfg env _)

/-- The events of the list are delivered one after the other. -/
theorem follows_feedAll (n : NodeState Sw) (events : List Event) :
    Follows env n (n.feedAll api cfg env events) := by
  induction events generalizing n with
  | nil => exact .of_app rfl
  | cons e events ih =>
    have hfeed := follows_feed api cfg env n e
    unfold feedAll
    dsimp only
    split
    · exact hfeed
    · exact hfeed.append (ih _)

/-- Picking up the port mapping delivers at most that. -/
theorem follows_pollPortMapping (n : NodeState Sw) (probe : Option (Option (Ipv4Addr × UInt16))) :
    Follows env n (n.pollPortMapping api cfg env probe) := by
  unfold pollPortMapping
  split
  · exact .of_app rfl
  · rename_i ip port _
    have hdeliver := follows_deliver api cfg env .portMapping { n with
      portMapping := .finished
      swarm := api.request n.swarm (.addExternalAddress ⟨[.ip4 ip, .udp port, .quicV1]⟩) }
      (.natStatusChanged .isPublic)
    refine .of_same ?_ hdeliver
    rfl
  · exact .of_app rfl

/-- A swarm event is booked, and then its events are delivered. -/
theorem follows_onSwarmEvent (n : NodeState Sw) (event : SwarmEvent) (swarm : Sw)
    (probe : Option (Option (Ipv4Addr × UInt16))) :
    Follows env n (n.onSwarmEvent api cfg env event swarm probe) := by
  unfold onSwarmEvent prepare
  dsimp only
  generalize hbooked : trackExternalAddrs api _ event = booked
  have happ : booked.app = n.app := by
    rw [← hbooked, (trackExternalAddrs_frame api _ event).2, (trackBootstrap_frame api cfg env _ _ _).2,
      bookkeep_app, (spawnPortMapping_frame cfg _ event).2]
  have hprobe := (follows_pollPortMapping api cfg env booked probe).of_same happ
  refine hprobe.append (.of_same ?_ (follows_feedAll api cfg env _ _))
  rfl

/-- The attempts that are due are timed out one after the other. -/
theorem follows_onHolePunchTimer (n : NodeState Sw) :
    Follows env n (n.onHolePunchTimer api cfg env) := by
  unfold onHolePunchTimer
  dsimp only
  refine List.foldlRecOn (n.conn.takeDueHolePunchTimeouts env env.now).2 (expireAttempt api cfg env)
    (motive := fun acc => Follows env n acc) (b := (_, [])) (.of_app rfl) fun acc hacc due _ => ?_
  unfold expireAttempt
  split
  · have hdeliver := follows_deliver api cfg env .holePunchTimer acc.1
      (.holePunchAttemptTimeout due.1 due.2)
    exact hacc.append hdeliver
  · exact hacc

/-- Every pass is a run of the state machine on what it delivers. -/
theorem follows_pass (n : NodeState Sw) (branch : LoopBranch Sw) :
    Follows env n (n.pass api cfg env branch) := by
  unfold pass
  split
  · exact .of_app rfl
  · cases branch with
    | swarmEvent event swarm probe => exact follows_onSwarmEvent api cfg env n event swarm probe
    | discoveryDeadline =>
      dsimp only
      split
      · exact .of_app rfl
      · refine .of_same ?_ (follows_deliver api cfg env .discoveryDeadline _ _)
        rfl
    | reconnectTimer =>
      obtain ⟨_, _, _, heq⟩ := onReconnectTimer_frame api env n
      exact .of_app (by rw [heq])
    | holePunchTimer => exact follows_onHolePunchTimer api cfg env n
    | shutdownSignal => exact follows_deliver api cfg env .shutdownSignal n .shutdownRequested

/-- The loop drives its state machine. -/
theorem drives_nodeLoop : (nodeLoop api cfg).Drives AppState.machine NodeState.app
    (fun input d => d.input input.env) Delivery.commands where
  after n input := (follows_pass api cfg input.env n input.branch).after
  outputs n input := (follows_pass api cfg input.env n input.branch).outputs

end NodeState

/-- The event that is delivered before the loop begins. -/
def NodeConfig.startEvent (cfg : NodeConfig) : Event :=
  if cfg.bootstrapAddrs = [] then .noBootstrapPeers else .natStatusChanged .isPrivate

/-- The state machine as `run` configures it. -/
def NodeConfig.appState (cfg : NodeConfig) (natMapping : NatMapping) : AppState :=
  .configured cfg.bootstrapPeerIds (cfg.tunnelCalls natMapping)

section Run

variable {Sw : Type} (api : SwarmApi Sw) (cfg : NodeConfig) (env : Env) (natMapping : NatMapping)
  (swarm : Sw) (inputs : List (LoopInput Sw))

/-- The events that are delivered along a run of the node. -/
def delivered : List Event :=
  cfg.startEvent ::
    ((nodeLoop api cfg).outputs (.start api cfg env natMapping swarm) inputs).map (·.event)

/-- The commands that are executed along a run of the node. -/
def executed : List Command :=
  ((cfg.appState natMapping).transition env cfg.startEvent).2 ++
    ((nodeLoop api cfg).outputs (.start api cfg env natMapping swarm) inputs).flatMap (·.commands)

/-- The inputs of the state machine along a run of the node. -/
def toldAlong : List (Env × Event) :=
  (env, cfg.startEvent) :: (nodeLoop api cfg).told (fun input d => d.input input.env)
    (.start api cfg env natMapping swarm) inputs

/-- They are the events that are delivered. -/
theorem map_snd_toldAlong : (toldAlong api cfg env natMapping swarm inputs).map Prod.snd =
    delivered api cfg env natMapping swarm inputs := by
  rw [toldAlong, List.map_cons, Mealy.Machine.map_told Prod.snd (·.event) fun _ _ => rfl]
  rfl

/-- They lead to the state of the node. -/
theorem after_toldAlong :
    AppState.machine.after (cfg.appState natMapping) (toldAlong api cfg env natMapping swarm inputs) =
      ((nodeLoop api cfg).after (.start api cfg env natMapping swarm) inputs).app :=
  ((NodeState.drives_nodeLoop api cfg).run (.start api cfg env natMapping swarm) inputs).1

/-- They ask for what is executed. -/
theorem outputs_toldAlong :
    AppState.machine.outputs (cfg.appState natMapping)
        (toldAlong api cfg env natMapping swarm inputs) =
      executed api cfg env natMapping swarm inputs := by
  rw [executed,
    ← ((NodeState.drives_nodeLoop api cfg).run (.start api cfg env natMapping swarm) inputs).2]
  rfl

/-- **The node refines its state machine.** Whatever the swarm, the timers and the signal do, there
is a run of the state machine on exactly the events that the node delivers, in their order, that ends
in the state of the node and asks for exactly the commands that the node executes. -/
theorem node_refines_machine :
    ∃ told : List (Env × Event), told.map Prod.snd = delivered api cfg env natMapping swarm inputs ∧
      AppState.machine.after (cfg.appState natMapping) told =
        ((nodeLoop api cfg).after (.start api cfg env natMapping swarm) inputs).app ∧
      AppState.machine.outputs (cfg.appState natMapping) told =
        executed api cfg env natMapping swarm inputs :=
  ⟨_, map_snd_toldAlong api cfg env natMapping swarm inputs,
    after_toldAlong api cfg env natMapping swarm inputs,
    outputs_toldAlong api cfg env natMapping swarm inputs⟩

end Run

end Punchgate
