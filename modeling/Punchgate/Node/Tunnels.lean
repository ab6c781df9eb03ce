import Punchgate.Node.Disconnect
import Punchgate.Node.Simulation
import Punchgate.Session.Network
import Punchgate.State.Provenance

/-!
# The tunnels of a node

Executing the command to open a tunnel starts a task that listens for it and registers the task. The
registry then tells which tunnels the node has opened: requested ones, each as often as it was
requested, and to peers that were configured or named by an answer.
-/

namespace Punchgate

/-- `TunnelRegistry`, over tasks of any kind. -/
structure TunnelRegistry (H : Type) where
  /-- The tasks with their labels. -/
  tunnels : FiniteMap ℕ (List Char × H)
  /-- The next id. -/
  nextId : ℕ

namespace TunnelRegistry

variable {H : Type}

/-- `TunnelRegistry::new`. -/
def new : TunnelRegistry H := ⟨∅, 0⟩

/-- `TunnelRegistry::register`. The process does not survive the overflow of the ids. -/
def register (r : TunnelRegistry H) (label : List Char) (handle : H) :
    Option (TunnelRegistry H × ℕ) :=
  if r.nextId < u64Max then
    some (⟨r.tunnels.insert r.nextId (label, handle), r.nextId + 1⟩, r.nextId)
  else none

/-- `TunnelRegistry::unregister`. -/
def unregister (r : TunnelRegistry H) (id : ℕ) : TunnelRegistry H :=
  { r with tunnels := r.tunnels.erase id }

/-- `TunnelRegistry::shutdown_all`: the tasks that are aborted, and what is left. -/
def shutdownAll (r : TunnelRegistry H) (order : Enumeration ℕ) : List H × TunnelRegistry H :=
  ((r.tunnels.entries order).map fun e => e.2.2, { r with tunnels := ∅ })

/-- `TunnelRegistry::active_count`. -/
def activeCount (r : TunnelRegistry H) : ℕ := r.tunnels.keys.card

end TunnelRegistry

/-- The task that a command starts: `connect_tunnel` for a peer, a service and an address. -/
def Command.task : Command → Option TunnelSpec
  | .spawnTunnel peer service bind => some ⟨peer, service, bind⟩
  | _ => none

/-- The intent that a task fulfils. -/
def TunnelSpec.intent (t : TunnelSpec) : Intent := (t.serviceName, t.bindAddr)

section Execute

variable (forms : TextForms)

/-- What executing a command does to the registry. -/
def registerCommand (r : TunnelRegistry TunnelSpec) (c : Command) :
    Option (TunnelRegistry TunnelSpec) :=
  match c.task with
  | some t => (r.register (t.fmt forms) t).map Prod.fst
  | none => some r

/-- The registry after a list of commands. -/
def registerAll (r : TunnelRegistry TunnelSpec) : List Command → Option (TunnelRegistry TunnelSpec)
  | [] => some r
  | c :: cs => (registerCommand forms r c).bind fun r => registerAll r cs

end Execute

/-- The intents that a configuration requests. -/
def NodeConfig.requested (cfg : NodeConfig) : Multiset Intent :=
  (cfg.tunnelSpecs.map TunnelSpec.intent ++
    cfg.tunnelByNameSpecs.map fun t => (t.serviceName, t.bindAddr) : List Intent)

/-- A multiset is the sum of its elements. -/
theorem sum_map_singletons {α β : Type} (f : α → β) (xs : List α) :
    (xs.map fun x => ({f x} : Multiset β)).sum = (xs.map f : List β) := by
  induction xs with
  | nil => rfl
  | cons x xs ih =>
    rw [List.map_cons, List.sum_cons, ih]
    rfl

/-! ## What the registry holds -/

/-- The registry holds tasks under consecutive ids. -/
structure TunnelRegistry.Holds (forms : TextForms) (r : TunnelRegistry TunnelSpec)
    (tasks : List TunnelSpec) : Prop where
  /-- The ids count the tasks. -/
  nextId : r.nextId = tasks.length
  /-- A task is found under its number. -/
  tunnels : ∀ id, r.tunnels.get? id = tasks[id]?.map fun t => (t.fmt forms, t)
  /-- The intents are those of the tasks. -/
  intents : r.tunnels.total (fun _ e => ({e.2.intent} : Multiset Intent)) =
    (tasks.map TunnelSpec.intent : List Intent)

namespace TunnelRegistry.Holds

variable {forms : TextForms} {r : TunnelRegistry TunnelSpec} {tasks : List TunnelSpec}

/-- A new registry holds no tasks. -/
theorem new : (TunnelRegistry.new : TunnelRegistry TunnelSpec).Holds forms [] :=
  ⟨rfl, fun _ => rfl, FiniteMap.total_empty _⟩

/-- As long as there are ids, one more task is registered. -/
theorem register (h : r.Holds forms tasks) (t : TunnelSpec) (hlt : tasks.length < u64Max) :
    ∃ r', r.register (t.fmt forms) t = some (r', tasks.length) ∧ r'.Holds forms (tasks ++ [t]) := by
  have hnone : r.tunnels.get? tasks.length = none := by
    rw [h.tunnels, List.getElem?_eq_none le_rfl]
    rfl
  refine ⟨⟨r.tunnels.insert tasks.length (t.fmt forms, t), tasks.length + 1⟩, ?_, ?_,
    fun id => ?_, ?_⟩
  · rw [TunnelRegistry.register, h.nextId, if_pos hlt]
  · rw [List.length_append]
    rfl
  · rw [FiniteMap.get?_insert]
    split
    · rename_i hid
      rw [hid, List.getElem?_concat_length]
      rfl
    · rename_i hid
      rw [h.tunnels]
      rcases Nat.lt_or_ge id tasks.length with hless | hge
      · rw [List.getElem?_append_left hless]
      · have hlen : (tasks ++ [t]).length ≤ id := by
          rw [List.length_append, List.length_singleton]
          omega
        rw [List.getElem?_eq_none hge, List.getElem?_eq_none hlen]
  · have herase := r.tunnels.total_erase tasks.length
      fun _ e => ({e.2.intent} : Multiset Intent)
    rw [hnone, Option.elim_none, add_zero] at herase
    rw [FiniteMap.total_insert, herase, h.intents, List.map_append, ← Multiset.coe_add]
    rfl

/-- Executing commands registers their tasks in order. -/
theorem registerAll (h : r.Holds forms tasks) (cs : List Command)
    (hle : tasks.length + (cs.filterMap Command.task).length ≤ u64Max) :
    ∃ r', Punchgate.registerAll forms r cs = some r' ∧
      r'.Holds forms (tasks ++ cs.filterMap Command.task) := by
  induction cs generalizing r tasks with
  | nil => exact ⟨r, rfl, by simpa using h⟩
  | cons c cs ih =>
    rw [Punchgate.registerAll, registerCommand]
    cases htask : c.task with
    | none =>
      rw [List.filterMap_cons_none htask] at hle ⊢
      exact ih h hle
    | some t =>
      rw [List.filterMap_cons_some htask, List.length_cons] at hle
      obtain ⟨r', hregister, hholds⟩ := h.register t (by omega)
      obtain ⟨r'', hrest, hall⟩ := ih hholds (by rw [List.length_append]; simp; omega)
      refine ⟨r'', ?_, ?_⟩
      · dsimp only
        rw [hregister]
        exact hrest
      · rw [List.filterMap_cons_some htask]
        simpa using hall

/-- The registry counts its tasks. -/
theorem activeCount (h : r.Holds forms tasks) : r.activeCount = tasks.length := by
  have hkeys : r.tunnels.keys = Finset.range tasks.length := by
    ext id
    rw [FiniteMap.mem_keys, FiniteMap.contains, h.tunnels, Option.isSome_map, Finset.mem_range]
    simp
  rw [TunnelRegistry.activeCount, hkeys, Finset.card_range]

/-- Shutting down aborts the tasks. -/
theorem shutdownAll (h : r.Holds forms tasks) (order : Enumeration ℕ) :
    (((r.shutdownAll order).1.map TunnelSpec.intent : List Intent) : Multiset Intent) =
      (tasks.map TunnelSpec.intent : List Intent) := by
  have hsum := FiniteMap.sum_entries r.tunnels order fun _ e => ({e.2.intent} : Multiset Intent)
  rw [sum_map_singletons fun e : ℕ × List Char × TunnelSpec => e.2.2.intent] at hsum
  rw [← h.intents, ← hsum, TunnelRegistry.shutdownAll, List.map_map]
  rfl

end TunnelRegistry.Holds

/-! ## What the composed machine opens -/

/-- The intents that commands fulfil are those of their tasks. -/
theorem spawnedIntents_eq (cs : List Command) :
    spawnedIntents cs = ((cs.filterMap Command.task).map TunnelSpec.intent : List Intent) := by
  induction cs with
  | nil => rfl
  | cons c cs ih =>
    have hcons : spawnedIntents (c :: cs) = c.spawned + spawnedIntents cs := rfl
    rw [hcons, ih]
    cases c with
    | spawnTunnel peer service bind => rfl
    | _ => exact zero_add _

namespace AppState

/-- A step of the composed machine is a run of the tunnel machine. -/
theorem transition_eq (env : Env) (a : AppState) (e : Event) :
    ∃ told, (a.transition env e).1.tunnel = TunnelState.machine.after a.tunnel told ∧
      (a.transition env e).2 =
        (a.peer.transition env e).2 ++ TunnelState.machine.outputs a.tunnel told :=
  ⟨_, rfl, rfl⟩

/-- The composed machine spawns intents as the tunnel machine does. -/
theorem run_conserves (a : AppState) (inputs : List (Env × Event)) :
    (machine.after a inputs).tunnel.heldIntents + spawnedIntents (machine.outputs a inputs) =
      a.tunnel.heldIntents := by
  have hstep (a : AppState) (i : Env × Event) : (machine.step a i).1.tunnel.heldIntents +
      ((machine.step a i).2.map Command.spawned).sum = a.tunnel.heldIntents := by
    have hpeer : ((a.peer.transition i.1 i.2).2.map Command.spawned).sum = 0 := by
      refine List.sum_eq_zero fun x hx => ?_
      obtain ⟨c, hc, rfl⟩ := List.mem_map.mp hx
      have hown := PeerState.fromPeer_of_mem_transition hc
      cases c <;> first | rfl | cases hown
    obtain ⟨told, hafter, hcommands⟩ := transition_eq i.1 a i.2
    have hmachine : machine.step a i = a.transition i.1 i.2 := rfl
    rw [hmachine, hafter, hcommands, List.map_append, List.sum_append, hpeer, zero_add]
    exact TunnelState.run_conserves a.tunnel told
  exact Mealy.Machine.conserved (fun a => a.tunnel.heldIntents) Command.spawned hstep a inputs

/-- The composed machine does at a peer what the tunnel machine does. -/
theorem commandsFor_outputs (a : AppState) (inputs : List (Env × Event)) (p : PeerId) :
    commandsFor p (machine.outputs a inputs) =
      commandsFor p (TunnelState.machine.outputs a.tunnel inputs) := by
  induction inputs generalizing a with
  | nil => rfl
  | cons i inputs ih =>
    have htunnel : (machine.step a i).1.tunnel = (TunnelState.machine.step a.tunnel i).1 :=
      transition_tunnel i.1 a i.2
    have hstep : commandsFor p (machine.step a i).2 =
        commandsFor p (TunnelState.machine.step a.tunnel i).2 := commandsFor_transition i.1 a i.2 p
    rw [Mealy.Machine.outputs, Mealy.Machine.outputs, commandsFor_append, commandsFor_append, hstep,
      ih, htunnel]

/-- It opens the same tunnels. -/
theorem spawnTunnel_mem_outputs {a : AppState} {inputs : List (Env × Event)} {p : PeerId}
    {svc : ServiceName} {bind : ServiceAddr}
    (h : .spawnTunnel p svc bind ∈ machine.outputs a inputs) :
    .spawnTunnel p svc bind ∈ TunnelState.machine.outputs a.tunnel inputs := by
  have hfor : .spawnTunnel p svc bind ∈ commandsFor p (machine.outputs a inputs) :=
    List.mem_filter.mpr ⟨h, by simp [Command.target]⟩
  rw [commandsFor_outputs] at hfor
  exact (List.mem_filter.mp hfor).1

end AppState

/-! ## What the node opens -/

/-- The calls request what the configuration requests. -/
theorem requestedIntents_tunnelCalls (cfg : NodeConfig) (natMapping : NatMapping) :
    requestedIntents (cfg.tunnelCalls natMapping) = cfg.requested := by
  have hpeer := sum_map_singletons TunnelSpec.intent cfg.tunnelSpecs
  have hname := sum_map_singletons (fun t : TunnelByNameSpec => (t.serviceName, t.bindAddr))
    cfg.tunnelByNameSpecs
  rw [requestedIntents, NodeConfig.tunnelCalls, List.map_append, List.map_append, List.sum_append,
    List.sum_append, List.map_map, List.map_map, NodeConfig.requested, ← Multiset.coe_add, ← hpeer,
    ← hname]
  exact add_zero _

/-- The configured machine holds what the configuration requests. -/
theorem heldIntents_appState (cfg : NodeConfig) (natMapping : NatMapping) :
    (cfg.appState natMapping).tunnel.heldIntents = cfg.requested := by
  rw [← requestedIntents_tunnelCalls cfg natMapping, ← TunnelState.heldIntents_configured]
  rfl

section Run

variable (forms : TextForms) {Sw : Type} (api : SwarmApi Sw) (cfg : NodeConfig) (env : Env)
  (natMapping : NatMapping) (swarm : Sw) (inputs : List (LoopInput Sw))

/-- What the node holds and the tasks that it has started are what its configuration requests. -/
theorem executed_conserves :
    ((nodeLoop api cfg).after (.start api cfg env natMapping swarm) inputs).app.tunnel.heldIntents +
      (((executed api cfg env natMapping swarm inputs).filterMap Command.task).map
        TunnelSpec.intent : List Intent) = cfg.requested := by
  have hconserves := (cfg.appState natMapping).run_conserves
    (toldAlong api cfg env natMapping swarm inputs)
  rwa [after_toldAlong, outputs_toldAlong, heldIntents_appState, spawnedIntents_eq] at hconserves

/-- A task that the node has started was configured for its peer, or the peer was named. -/
theorem named_of_executed {t : TunnelSpec}
    (ht : t ∈ (executed api cfg env natMapping swarm inputs).filterMap Command.task) :
    t ∈ cfg.tunnelSpecs ∨
      ∃ e ∈ delivered api cfg env natMapping swarm inputs, e.Names t.serviceName t.remotePeer := by
  obtain ⟨c, hc, htask⟩ := List.mem_filterMap.mp ht
  have hspawn : c = .spawnTunnel t.remotePeer t.serviceName t.bindAddr := by
    cases c <;> cases htask
    rfl
  rw [hspawn, ← outputs_toldAlong] at hc
  have hnamed := TunnelState.named_of_spawned (cfg.tunnelCalls natMapping)
    (toldAlong api cfg env natMapping swarm inputs) _ (AppState.spawnTunnel_mem_outputs hc)
    t.remotePeer t.intent rfl
  rcases hnamed with hcall | ⟨i, hi, hnames⟩
  · left
    rcases List.mem_append.mp hcall with hcall | hlast
    · rcases List.mem_append.mp hcall with hpeer | hname
      · obtain ⟨t', ht', heq⟩ := List.mem_map.mp hpeer
        have hsame : t' = t := by
          cases t
          cases t'
          cases heq
          rfl
        exact hsame ▸ ht'
      · obtain ⟨_, _, heq⟩ := List.mem_map.mp hname
        cases heq
    · cases List.mem_singleton.mp hlast
  · right
    refine ⟨i.2, ?_, hnames⟩
    rw [← map_snd_toldAlong]
    exact List.mem_map_of_mem hi

/-- **The tunnels of a node.** Whatever happens, the tunnels that a node has registered and the
intents that it still holds are together what its configuration requests, each as often as it is
requested. No registration overwrites another, every registered tunnel is labelled with what it was
opened for, and it leads to the peer it was configured for or to one that an answer for its service
has named. -/
theorem node_opens_requested_tunnels
    (hids : cfg.tunnelSpecs.length + cfg.tunnelByNameSpecs.length ≤ u64Max) :
    ∃ r : TunnelRegistry TunnelSpec,
      registerAll forms .new (executed api cfg env natMapping swarm inputs) = some r ∧
      (∀ order, ((nodeLoop api cfg).after (.start api cfg env natMapping swarm)
          inputs).app.tunnel.heldIntents +
        ((r.shutdownAll order).1.map TunnelSpec.intent : List Intent) = cfg.requested) ∧
      r.activeCount + ((nodeLoop api cfg).after (.start api cfg env natMapping swarm)
          inputs).app.tunnel.heldIntents.card =
        cfg.tunnelSpecs.length + cfg.tunnelByNameSpecs.length ∧
      ∀ id label t, r.tunnels.get? id = some (label, t) →
        id < r.activeCount ∧ label = t.fmt forms ∧
          (t ∈ cfg.tunnelSpecs ∨ ∃ e ∈ delivered api cfg env natMapping swarm inputs,
            e.Names t.serviceName t.remotePeer) := by
  have hconserves := executed_conserves api cfg env natMapping swarm inputs
  have hcard := congrArg Multiset.card hconserves
  rw [Multiset.card_add, NodeConfig.requested, Multiset.coe_card, Multiset.coe_card,
    List.length_append, List.length_map, List.length_map, List.length_map] at hcard
  have hnew : (TunnelRegistry.new : TunnelRegistry TunnelSpec).Holds forms [] := .new
  obtain ⟨r, hregister, hholds⟩ := hnew.registerAll
    (executed api cfg env natMapping swarm inputs) (by rw [List.length_nil]; omega)
  rw [List.nil_append] at hholds
  refine ⟨r, hregister, fun order => ?_, ?_, fun id label t hget => ?_⟩
  · rw [hholds.shutdownAll order, hconserves]
  · rw [hholds.activeCount]
    omega
  · rw [hholds.tunnels] at hget
    obtain ⟨t', ht', heq⟩ := Option.map_eq_some_iff.mp hget
    cases heq
    obtain ⟨hlt, hmem⟩ := List.getElem?_eq_some_iff.mp ht'
    refine ⟨hholds.activeCount ▸ hlt, rfl, ?_⟩
    exact named_of_executed api cfg env natMapping swarm inputs (hmem ▸ List.getElem_mem hlt)

end Run

/-- The requested tunnel is opened over a direct connection. -/
theorem node_opens_requested_tunnels_direct :
    ∃ r : TunnelRegistry TunnelSpec,
      registerAll .numbers .new
        (executed sampleApi webConfig .sorted .unknown ⟨[], 0⟩ directRun) = some r ∧
      r.activeCount + ((nodeLoop sampleApi webConfig).after
        (.start sampleApi webConfig .sorted .unknown ⟨[], 0⟩)
        directRun).app.tunnel.heldIntents.card = 1 := by
  obtain ⟨r, hregister, -, hcount, -⟩ := node_opens_requested_tunnels .numbers sampleApi webConfig
    .sorted .unknown ⟨[], 0⟩ directRun (by decide)
  exact ⟨r, hregister, hcount⟩

example : (executed sampleApi webConfig .sorted .unknown ⟨[], 0⟩ directRun).filterMap
    Command.task = webConfig.tunnelSpecs := by decide

/-! ## Where the tunnels lead -/

/-- `services` of `run`. -/
def NodeConfig.services (cfg : NodeConfig) : FiniteMap ServiceName ServiceAddr :=
  cfg.exposed.foldl (fun services s => services.insert s.name s.localAddr) ∅

/-- What is found under a name was exposed under it. -/
theorem NodeConfig.mem_exposed {cfg : NodeConfig} {name : ServiceName} {addr : ServiceAddr}
    (h : cfg.services.get? name = some addr) : ⟨name, addr⟩ ∈ cfg.exposed := by
  revert h
  refine List.foldlRecOn cfg.exposed _ (b := ∅)
    (motive := fun services : FiniteMap ServiceName ServiceAddr =>
      services.get? name = some addr → ⟨name, addr⟩ ∈ cfg.exposed) ?_ ?_
  · intro hget
    cases hget
  · intro services ih s hs hget
    rw [FiniteMap.get?_insert] at hget
    split at hget
    · rename_i hname
      cases hget
      rw [hname]
      exact hs
    · exact ih hget

/-- The network of peers that run nodes. -/
def deployment (nodes : PeerId → NodeConfig)
    (requestFromSlice : List UInt8 → Except String TunnelRequest)
    (responseFromSlice : List UInt8 → Except String TunnelResponse) (limits : Limits) :
    Deployment :=
  ⟨fun p => (nodes p).services, requestFromSlice, responseFromSlice, limits⟩

/-- **From the configuration to the service.** Whatever happens to a node, and however the clients,
the streams and the services of its tunnels behave: every session fulfils a requested intent, and its
peer is the configured one or was named by an answer for the service. The only thing that peer ever
connects to is a local address that it exposes under the requested name. -/
theorem node_tunnels_reach_services {Sw : Type} {api : SwarmApi Sw} {cfg : NodeConfig} {env : Env}
    {natMapping : NatMapping} {swarm : Sw} {inputs : List (LoopInput Sw)}
    {nodes : PeerId → NodeConfig}
    {requestFromSlice : List UInt8 → Except String TunnelRequest}
    {responseFromSlice : List UInt8 → Except String TunnelResponse} {limits : Limits}
    (hrequest : Undoes requestFromSlice) {as : List NetworkAction} {n : Network}
    (h : (Network.machine (deployment nodes requestFromSlice responseFromSlice limits)).run
      (.start ((executed api cfg env natMapping swarm inputs).filterMap Command.task)) as = some n)
    {key : SessionKey} {s : Session} (hs : (key, s) ∈ n.sessions) :
    key.spec.intent ∈ cfg.requested ∧
      (key.spec ∈ cfg.tunnelSpecs ∨ ∃ e ∈ delivered api cfg env natMapping swarm inputs,
        e.Names key.spec.serviceName key.spec.remotePeer) ∧
      ∀ localAddr, s.dialed = some localAddr →
        ⟨key.spec.serviceName, localAddr⟩ ∈ (nodes key.spec.remotePeer).exposed := by
  have hkey := ((Network.tended_start _).run h).keys key (List.mem_map_of_mem hs)
  have htask := List.mem_of_getElem? hkey
  obtain ⟨i, hi⟩ := List.mem_iff_getElem?.mp hs
  refine ⟨?_, named_of_executed api cfg env natMapping swarm inputs htask, fun addr hdialed => ?_⟩
  · rw [← executed_conserves api cfg env natMapping swarm inputs, Multiset.mem_add]
    exact Or.inr (List.mem_map_of_mem htask)
  · have hsafe := (Session.safe_start _).run (Network.session_run h hi)
    exact NodeConfig.mem_exposed (hsafe.dialed_eq hrequest hdialed)

/-- A node that exposes what `webConfig` asks for. -/
def webServer : NodeConfig :=
  { webConfig with exposed := [⟨webIntent.1, ⟨.domain "localhost", 80⟩⟩] }

/-- A client connects to the tunnel that was opened, and its session runs to the end. -/
def webVisit : List NetworkAction :=
  [.listener 0 (.bind true), .listener 0 .connect, .listener 0 (.accept true),
    .listener 0 (.openStream true), .handle 0] ++ Session.webActions.map (.session 0)

/-- The session leads to the service that the peer exposes. -/
theorem node_tunnels_reach_services_web : ∃ n key s,
    (Network.machine (deployment (fun _ => webServer) (Session.knownFromSlice ⟨webIntent.1⟩)
      (Session.knownFromSlice ⟨true, none⟩) Session.usualLimits)).run (.start ((executed sampleApi
        webConfig .sorted .unknown ⟨[], 0⟩ directRun).filterMap Command.task)) webVisit = some n ∧
    (key, s) ∈ n.sessions ∧ s.dialed.isSome = true ∧
    key.spec.intent ∈ webConfig.requested ∧
      (key.spec ∈ webConfig.tunnelSpecs ∨
        ∃ e ∈ delivered sampleApi webConfig .sorted .unknown ⟨[], 0⟩ directRun,
          e.Names key.spec.serviceName key.spec.remotePeer) ∧
      ∀ localAddr, s.dialed = some localAddr →
        ⟨key.spec.serviceName, localAddr⟩ ∈ webServer.exposed := by
  have hsome : (((Network.machine (deployment (fun _ => webServer)
      (Session.knownFromSlice ⟨webIntent.1⟩) (Session.knownFromSlice ⟨true, none⟩)
      Session.usualLimits)).run
      (.start ((executed sampleApi webConfig .sorted .unknown ⟨[], 0⟩ directRun).filterMap
        Command.task)) webVisit).any fun n => n.sessions.any fun x => x.2.dialed.isSome) =
      true := by
    decide +kernel
  obtain ⟨n, h, hany⟩ := (Option.any_eq_true _ _).mp hsome
  obtain ⟨⟨key, s⟩, hs, hdialed⟩ := List.any_eq_true.mp hany
  exact ⟨n, key, s, h, hs, hdialed, node_tunnels_reach_services
    (Session.knownFromSlice_undoes toVec_request_injective _) h hs⟩

end Punchgate
