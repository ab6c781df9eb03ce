import Punchgate.Node.DirectPath
import Punchgate.Node.Tunnels
import Punchgate.Session.Handshake
import Punchgate.State.Relevance

/-!
# How services are found

A node publishes what it exposes under keys made of the names. A node with a tunnel to a name asks
for the providers of the key of that name. The keys tell the names apart, so whoever is published
under a key that is asked for accepts the tunnel, and whoever is not rejects it.
-/

namespace Punchgate

/-! ## Keys -/

/-- `service_name_from_key`. -/
def serviceNameFromKey (key : List UInt8) : Option String :=
  (String.fromUTF8? ⟨key.toArray⟩).bind fun s =>
    (serviceKeyPrefix.toList.isPrefixOf? s.toList).map String.ofList

/-- The loop of `ByteArray.toList` collects the bytes from an index on. -/
theorem toList_loop_drop (bytes : ByteArray) (i : ℕ) (r : List UInt8) :
    ByteArray.toList.loop bytes i r = r.reverse ++ bytes.data.toList.drop i := by
  fun_induction ByteArray.toList.loop bytes i r with
  | case1 i r hlt ih =>
    have hget : bytes.get! i = bytes.data.toList[i] := getElem!_pos bytes.data i hlt
    rw [ih, List.reverse_cons, List.append_assoc, List.drop_eq_getElem_cons hlt, hget]
    rfl
  | case2 i r hge =>
    rw [List.drop_eq_nil_of_le (Nat.le_of_not_lt hge), List.append_nil]

/-- The bytes of a key are those of its text. -/
theorem bytes_forService (name : ServiceName) :
    (KademliaKey.forService name).bytes = utf8 (serviceKeyPrefix ++ name.name) := by
  rw [KademliaKey.forService, ByteArray.toList, toList_loop_drop]
  rfl

/-- Bytes are read as a text exactly if they are its bytes. -/
theorem fromUTF8?_eq_some_iff {key : List UInt8} {s : String} :
    String.fromUTF8? ⟨key.toArray⟩ = some s ↔ key = utf8 s := by
  unfold String.fromUTF8?
  constructor
  · intro h
    split at h
    · cases h
      rfl
    · cases h
  · rintro rfl
    have hvalid : (⟨(utf8 s).toArray⟩ : ByteArray) = s.toByteArray := rfl
    rw [hvalid, dif_pos s.isValidUTF8]
    rfl

/-- **Round trip.** A key tells a name exactly if it was made for it. -/
theorem serviceNameFromKey_eq_some_iff {key : List UInt8} {name : String} :
    serviceNameFromKey key = some name ↔ key = (KademliaKey.forService ⟨name⟩).bytes := by
  rw [bytes_forService, serviceNameFromKey, Option.bind_eq_some_iff]
  constructor
  · rintro ⟨s, hs, h⟩
    obtain ⟨rest, hrest, rfl⟩ := Option.map_eq_some_iff.mp h
    rw [List.isPrefixOf?_eq_some_iff_append_eq] at hrest
    rw [fromUTF8?_eq_some_iff.mp hs, ← String.ofList_toList (s := s), ← hrest, String.ofList_append,
      String.ofList_toList]
  · rintro rfl
    refine ⟨serviceKeyPrefix ++ name, fromUTF8?_eq_some_iff.mpr rfl, ?_⟩
    have hfront : serviceKeyPrefix.toList.isPrefixOf? (serviceKeyPrefix ++ name).toList =
        some name.toList := by
      rw [List.isPrefixOf?_eq_some_iff_append_eq, String.toList_append]
    rw [hfront, Option.map_some, String.ofList_toList]

/-- Different names have different keys. -/
theorem forService_injective : Function.Injective KademliaKey.forService := by
  rintro ⟨a⟩ ⟨b⟩ h
  have ha := serviceNameFromKey_eq_some_iff.mpr (congrArg KademliaKey.bytes h)
  have hb := serviceNameFromKey_eq_some_iff.mpr (rfl : (KademliaKey.forService ⟨a⟩).bytes = _)
  cases ha.symm.trans hb
  rfl

/-! ## What is published -/

/-- The requests by which services are published. -/
def publishRequests (exposed : List ExposedService) : List SwarmRequest :=
  exposed.flatMap fun svc =>
    [.startProviding (.forService svc.name), .putRecord (.forService svc.name) svc.name]

/-- Publishing makes these requests and does nothing else. -/
theorem publishServices_eq {Sw : Type} (api : SwarmApi Sw) (exposed : List ExposedService)
    (swarm : Sw) :
    publishServices api exposed swarm = (publishRequests exposed).foldl api.request swarm := by
  induction exposed generalizing swarm with
  | nil => rfl
  | cons svc exposed ih => exact ih _

/-- A key is provided exactly if it was made for an exposed service. -/
theorem startProviding_mem_iff {exposed : List ExposedService} {svc : ServiceName} :
    .startProviding (.forService svc) ∈ publishRequests exposed ↔
      ∃ e ∈ exposed, e.name = svc := by
  rw [publishRequests, List.mem_flatMap]
  refine exists_congr fun e => and_congr_right fun _ => ?_
  constructor
  · intro h
    rcases List.mem_cons.mp h with heq | h
    · exact forService_injective (SwarmRequest.startProviding.inj heq).symm
    · cases List.mem_singleton.mp h
  · rintro rfl
    exact List.mem_cons_self

/-- A node has a service exactly if it exposes one under the name. -/
theorem NodeConfig.services_contains {cfg : NodeConfig} {svc : ServiceName} :
    cfg.services.contains svc = true ↔ ∃ e ∈ cfg.exposed, e.name = svc := by
  constructor
  · intro h
    obtain ⟨addr, haddr⟩ := Option.isSome_iff_exists.mp h
    exact ⟨_, NodeConfig.mem_exposed haddr, rfl⟩
  · rintro ⟨e, he, rfl⟩
    have hkeep (exposed : List ExposedService) (services : FiniteMap ServiceName ServiceAddr)
        (h : e ∈ exposed ∨ services.contains e.name = true) :
        (exposed.foldl (fun services s => services.insert s.name s.localAddr)
          services).contains e.name = true := by
      induction exposed generalizing services with
      | nil => exact h.resolve_left List.not_mem_nil
      | cons s exposed ih =>
        refine ih _ ?_
        rcases h with hmem | hbefore
        · rcases List.mem_cons.mp hmem with rfl | hmem
          · right
            rw [FiniteMap.contains, FiniteMap.get?_insert_self]
            rfl
          · exact Or.inl hmem
        · right
          rw [FiniteMap.contains, FiniteMap.get?_insert]
          split
          · rfl
          · exact hbefore
    exact hkeep cfg.exposed ∅ (Or.inl he)

/-! ## What is looked up -/

/-- What a lookup may be for: the key of a service that is among some intents. -/
def LooksUp (requested : Multiset Intent) (c : Command) : Prop :=
  ∀ svc key, c = .dhtGetProviders svc key →
    key = .forService svc ∧ ∃ bind, (svc, bind) ∈ requested

/-- The machine holds intents of the configuration only. -/
def TunnelState.HoldsOf (requested : Multiset Intent) (s : TunnelState) : Prop :=
  s.Represents ∧ ∀ spec ∈ s.heldIntents, spec ∈ requested

namespace TunnelState

variable {requested : Multiset Intent} {s : TunnelState}

/-- **Step.** Intents are not added, and lookups are for services of intents. -/
theorem HoldsOf.step (h : s.HoldsOf requested) (env : Env) (e : Event) :
    (s.transition env e).1.HoldsOf requested ∧
      ∀ c ∈ (s.transition env e).2, LooksUp requested c := by
  have hconserves : (s.transition env e).1.heldIntents + spawnedIntents (s.transition env e).2 =
      s.heldIntents := s.transition_conserves env e
  have hheld : ∀ spec ∈ (s.transition env e).1.heldIntents, spec ∈ requested := by
    intro spec hspec
    refine h.2 spec ?_
    rw [← hconserves]
    exact Multiset.mem_add.mpr (Or.inl hspec)
  have hrepresents := h.1.step env e
  refine ⟨⟨hrepresents, hheld⟩, fun c hc svc key heq => ?_⟩
  subst heq
  obtain ⟨hpending, hkey⟩ := h.1.serves env e _ hc
  obtain ⟨binds, hbinds⟩ := Option.isSome_iff_exists.mp hpending
  obtain ⟨bind, hbind⟩ :=
    List.exists_mem_of_ne_nil binds (hrepresents.pendingByService svc binds hbinds)
  refine ⟨hkey, bind, hheld _ (mem_heldIntents_of_service ?_)⟩
  rw [FiniteMap.getD, hbinds]
  exact hbind

/-- Along a run of the machine. -/
theorem HoldsOf.run (h : s.HoldsOf requested) (inputs : List (Env × Event)) :
    (machine.after s inputs).HoldsOf requested ∧
      ∀ c ∈ machine.outputs s inputs, LooksUp requested c := by
  have hstep (s : TunnelState) (i : Env × Event) (hs : s.HoldsOf requested) :
      (machine.step s i).1.HoldsOf requested ∧
        ∀ c ∈ (machine.step s i).2, LooksUp requested c := hs.step i.1 i.2
  exact ⟨Mealy.Machine.invariant inputs h fun s i hs => (hstep s i hs).1,
    Mealy.Machine.forall_outputs inputs h hstep⟩

end TunnelState

/-- The composed machine looks up what the tunnel machine looks up. -/
theorem AppState.looksUp {requested : Multiset Intent} {a : AppState}
    (h : a.tunnel.HoldsOf requested) (inputs : List (Env × Event)) :
    ∀ c ∈ AppState.machine.outputs a inputs, LooksUp requested c := by
  have hstep (a : AppState) (i : Env × Event) (h : a.tunnel.HoldsOf requested) :
      (AppState.machine.step a i).1.tunnel.HoldsOf requested ∧
        ∀ c ∈ (AppState.machine.step a i).2, LooksUp requested c := by
    obtain ⟨told, hafter, hcommands⟩ := AppState.transition_eq i.1 a i.2
    have hmachine : AppState.machine.step a i = a.transition i.1 i.2 := rfl
    rw [hmachine, hafter, hcommands]
    obtain ⟨hholds, houtputs⟩ := h.run told
    refine ⟨hholds, fun c hc => ?_⟩
    rcases List.mem_append.mp hc with hpeer | htunnel
    · intro svc key heq
      have hown := PeerState.fromPeer_of_mem_transition hpeer
      rw [heq] at hown
      cases hown
    · exact houtputs c htunnel
  exact Mealy.Machine.forall_outputs (P := fun a => a.tunnel.HoldsOf requested) inputs h hstep

/-- **Discovery.** Whatever happens, a node asks for the providers of a key only for a service that
it is configured to reach, and the key tells the name of that service. Any node that answers a
request for the service accepts it exactly if publishing makes it a provider of the key. -/
theorem lookups_find_services {Sw : Type} {api : SwarmApi Sw} {cfg : NodeConfig} {env : Env}
    {natMapping : NatMapping} {swarm : Sw} {inputs : List (LoopInput Sw)} {svc : ServiceName}
    {key : KademliaKey}
    (hlookup : .dhtGetProviders svc key ∈ executed api cfg env natMapping swarm inputs)
    {server : NodeConfig} {fromSlice : List UInt8 → Except String TunnelRequest}
    {connects : ServiceAddr → Bool} {stream rest bytes : List UInt8} {response : TunnelResponse}
    (hread : readMessage fromSlice stream = .ok (⟨svc⟩, rest))
    (hanswer : handleTunnel fromSlice connects server.services stream = .ok (response, bytes)) :
    (∃ bind, (svc, bind) ∈ cfg.requested) ∧ serviceNameFromKey key.bytes = some svc.name ∧
      ∃ requests : List SwarmRequest,
        (∀ (Sw : Type) (api : SwarmApi Sw) (swarm : Sw),
          publishServices api server.exposed swarm = requests.foldl api.request swarm) ∧
        (response.accepted = true ↔ .startProviding key ∈ requests) := by
  have hholds : (cfg.appState natMapping).tunnel.HoldsOf cfg.requested := by
    refine ⟨TunnelState.represents_configured _, fun spec hspec => ?_⟩
    rwa [heldIntents_appState] at hspec
  rw [← outputs_toldAlong] at hlookup
  obtain ⟨rfl, hrequested⟩ := AppState.looksUp hholds _ _ hlookup svc key rfl
  refine ⟨hrequested, serviceNameFromKey_eq_some_iff.mpr rfl, publishRequests server.exposed,
    fun _ api swarm => publishServices_eq api server.exposed swarm, ?_⟩
  rw [startProviding_mem_iff, ← NodeConfig.services_contains]
  obtain ⟨-, ⟨hknown, rfl⟩ | ⟨hunknown, rfl⟩⟩ := handleTunnel_cases hread hanswer
  · exact iff_of_true rfl hknown
  · exact iff_of_false Bool.false_ne_true (by rw [hunknown]; exact Bool.false_ne_true)

/-- The node asks for the one service at once, and a node that exposes it accepts. -/
theorem lookups_find_services_web :
    (∃ bind, (webIntent.1, bind) ∈ serviceConfig.requested) ∧
      serviceNameFromKey (KademliaKey.forService webIntent.1).bytes = some webIntent.1.name ∧
      ∃ requests : List SwarmRequest,
        (∀ (Sw : Type) (api : SwarmApi Sw) (swarm : Sw),
          publishServices api webServer.exposed swarm = requests.foldl api.request swarm) ∧
        ((⟨true, none⟩ : TunnelResponse).accepted = true ↔
          .startProviding (.forService webIntent.1) ∈ requests) := by
  have hexecuted : executed sampleApi serviceConfig .sorted .unknown ⟨[], 0⟩ [] =
      [.publishServices, .getProviders webIntent.1] := rfl
  have hlookup : .getProviders webIntent.1 ∈
      executed sampleApi serviceConfig .sorted .unknown ⟨[], 0⟩ [] := by
    rw [hexecuted]
    exact List.mem_cons_of_mem _ (List.mem_singleton_self _)
  have hread : readMessage (Session.knownFromSlice (⟨webIntent.1⟩ : TunnelRequest))
      (Framing.toBeBytes 4 22 ++ utf8 "\x7b\"service_name\":\"web\"\x7d") =
        .ok (⟨webIntent.1⟩, []) := by decide +kernel
  have hanswer : handleTunnel (Session.knownFromSlice ⟨webIntent.1⟩) (fun _ => true)
      webServer.services (Framing.toBeBytes 4 22 ++ utf8 "\x7b\"service_name\":\"web\"\x7d") =
        .ok (⟨true, none⟩, Framing.toBeBytes 4 17 ++ utf8 "\x7b\"accepted\":true\x7d") := by
    decide +kernel
  exact lookups_find_services hlookup hread hanswer

/-! ## Who is found -/

/-- **Acceptance.** If the peers of the configured tunnels expose the services, and answers name only
peers that publish what they are asked for, then no client of any tunnel of the node is ever
rejected, whatever else happens in the node and in the network. -/
theorem sessions_never_rejected {Sw : Type} {api : SwarmApi Sw} {cfg : NodeConfig} {env : Env}
    {natMapping : NatMapping} {swarm : Sw} {inputs : List (LoopInput Sw)}
    {nodes : PeerId → NodeConfig}
    {requestFromSlice : List UInt8 → Except String TunnelRequest}
    {responseFromSlice : List UInt8 → Except String TunnelResponse} {limits : Limits}
    (hrequest : Undoes requestFromSlice) (hresponse : Undoes responseFromSlice)
    (hconfigured : ∀ t ∈ cfg.tunnelSpecs,
      ∃ e ∈ (nodes t.remotePeer).exposed, e.name = t.serviceName)
    (hnamed : ∀ e ∈ delivered api cfg env natMapping swarm inputs, ∀ svc q, e.Names svc q →
      .startProviding (.forService svc) ∈ publishRequests (nodes q).exposed)
    {as : List NetworkAction} {n : Network}
    (h : (Network.machine (deployment nodes requestFromSlice responseFromSlice limits)).run
      (.start ((executed api cfg env natMapping swarm inputs).filterMap Command.task)) as = some n)
    {key : SessionKey} {s : Session} (hs : (key, s) ∈ n.sessions) (reason : String) :
    s.client ≠ .returned (.failed (.rejected reason)) := by
  have hkey := ((Network.tended_start _).run h).keys key (List.mem_map_of_mem hs)
  have htask := List.mem_of_getElem? hkey
  have hexposes : ∃ e ∈ (nodes key.spec.remotePeer).exposed, e.name = key.spec.serviceName := by
    rcases named_of_executed api cfg env natMapping swarm inputs htask with hspec | ⟨e, he, hnames⟩
    · exact hconfigured key.spec hspec
    · exact startProviding_mem_iff.mp (hnamed e he _ _ hnames)
  obtain ⟨i, hi⟩ := List.mem_iff_getElem?.mp hs
  have hrun := Network.session_run h hi
  have hsafe := (Session.safe_start _).run hrun
  have hfollows := (Session.follows_start _).run (Session.safe_start _) hrun
  exact hfollows.not_rejected hsafe hrequest hresponse
    (NodeConfig.services_contains.mpr hexposes) reason

/-- A direct connection to peer 1 is opened, and then the peer is found to provide the service. -/
def foundRun : List (LoopInput SampleSwarm) :=
  [⟨.sorted, .swarmEvent (.connectionEstablished ⟨1⟩ ⟨1⟩ (directEndpoint ⟨1⟩)) ⟨[⟨1⟩], 1⟩ none⟩,
    ⟨.sorted, .swarmEvent (.behaviour (.kadGetProviders ⟨0⟩ (.foundProviders {⟨1⟩})))
      ⟨[⟨1⟩], 1⟩ none⟩]

/-- The client of the tunnel to the peer that an answer has named is not rejected. -/
theorem sessions_never_rejected_web : ∃ n key s,
    (Network.machine (deployment (fun _ => webServer) (Session.knownFromSlice ⟨webIntent.1⟩)
      (Session.knownFromSlice ⟨true, none⟩) Session.usualLimits)).run
      (.start ((executed sampleApi serviceConfig .sorted .unknown ⟨[], 0⟩ foundRun).filterMap
        Command.task)) webVisit = some n ∧
    (key, s) ∈ n.sessions ∧ s.client ≠ .returned (.failed (.rejected "unknown service: web")) := by
  have hsome : (((Network.machine (deployment (fun _ => webServer)
      (Session.knownFromSlice ⟨webIntent.1⟩) (Session.knownFromSlice ⟨true, none⟩)
      Session.usualLimits)).run
      (.start ((executed sampleApi serviceConfig .sorted .unknown ⟨[], 0⟩ foundRun).filterMap
        Command.task)) webVisit).any fun n => n.sessions ≠ []) = true := by
    decide +kernel
  obtain ⟨n, h, hsessions⟩ := (Option.any_eq_true _ _).mp hsome
  obtain ⟨⟨key, s⟩, hs⟩ := List.exists_mem_of_ne_nil _ (of_decide_eq_true hsessions)
  have hanswers : ∀ e ∈ delivered sampleApi serviceConfig .sorted .unknown ⟨[], 0⟩ foundRun,
      e.handsOver = false ∨ e = .dhtServiceResolved webIntent.1 [(⟨1⟩, true)] := by decide
  have hpublished : .startProviding (.forService webIntent.1) ∈ publishRequests webServer.exposed :=
    startProviding_mem_iff.mpr ⟨_, List.mem_singleton_self _, rfl⟩
  refine ⟨n, key, s, h, hs, sessions_never_rejected
    (Session.knownFromSlice_undoes toVec_request_injective _)
    (Session.knownFromSlice_undoes toVec_response_injective _) (by decide) ?_ h hs _⟩
  intro e he svc q hnames
  rcases hanswers e he with hquiet | rfl
  · cases e with
    | dhtServiceResolved name providers => cases hquiet
    | _ => exact hnames.elim
  · obtain ⟨rfl, -⟩ := hnames
    exact hpublished

end Punchgate
