import Punchgate.Node.DirectPath
import Punchgate.Node.Operations
import Punchgate.State.Queries

/-!
# Service lookups in the loop

While intents wait for the providers of a service, the loop must have a provider query for it
open: the answer is what wakes the tunnel machine. An answered query is forgotten before the
tunnel machine is told, so that the machine has to ask again unless it needs no provider any
more. From the first time the node is ready, no service is left without a query.
-/

namespace Punchgate

namespace NodeState

variable {Sw : Type}

/-- A service that intents wait for is what some open query is for. -/
def ServiceAttended (svc : ServiceName) (n : NodeState Sw) : Prop :=
  n.app.tunnel.pendingByService.contains svc = true → n.ctx.kadServiceQueries.HasValue svc

/-- The books of provider queries: only issued ids are remembered, and if `since` holds or the
node is ready, then the service is attended to. -/
structure ServiceBooks (issued : Sw → Set QueryId) (svc : ServiceName) (since : Prop)
    (n : NodeState Sw) : Prop where
  /-- Only issued ids are remembered. -/
  numbered : Numbered issued ExecutionContext.kadServiceQueries (n.swarm, n.ctx)
  /-- The service is attended to. -/
  attended : since ∨ n.app.phase = .ready → n.ServiceAttended svc

end NodeState

/-- While intents wait for a service after an event, the event led to a query, or they waited
before and the event is no answer. -/
theorem ServiceStep.wakes {s : TunnelState} {svc : ServiceName} {e : Event} {v : ServiceView}
    {n : ℕ} (h : ServiceStep s svc e v n) (hv : v.pending.isSome = true) :
    0 < n ∨ (s.serviceView svc).pending.isSome = true ∧ e.answers svc = false := by
  cases h with
  | idle he => exact Or.inr ⟨hv, he⟩
  | started => exact Or.inr ⟨hv, rfl⟩
  | failed =>
    left
    unfold ServiceView.demand
    rw [if_pos hv]
    omega
  | unneeded hpending =>
    rw [hpending] at hv
    cases hv
  | unresolved => exact Or.inl Nat.one_pos
  | resolved => cases hv
  | @rerouted q reason binds candidates =>
    by_cases hbinds : binds = []
    · simp only [ServiceView.refill, if_pos hbinds] at hv
      exact Or.inr ⟨hv, rfl⟩
    · rw [if_neg hbinds]
      exact Or.inl Nat.one_pos

/-- A counted query is among the commands. -/
theorem exists_queried_of_queriesFor {svc : ServiceName} {cs : List Command}
    (h : 0 < queriesFor svc cs) : ∃ c ∈ cs, c.queried = some svc := by
  obtain ⟨c, hc, hqueries⟩ := List.countP_pos_iff.mp h
  refine ⟨c, hc, ?_⟩
  cases c with
  | dhtGetProviders name key =>
    have hname : name = svc := by simpa [Command.queries] using hqueries
    rw [Command.queried, hname]
  | _ => cases hqueries

namespace NodeState

variable {Sw : Type} {api : SwarmApi Sw} {cfg : NodeConfig} {env : Env} {n m : NodeState Sw}
  {issued : Sw → Set QueryId} {svc : ServiceName} {since : Prop}

/-- A delivered event leaves a service attended to that was attended to before. So does an
answer, and the event that makes the node ready, whatever was before. -/
theorem attended_deliver (hnumbers : api.Numbers issued api.getProviders)
    (hnumbered : Numbered issued ExecutionContext.kadServiceQueries (n.swarm, n.ctx))
    (source : DeliverySource) {e : Event}
    (h : n.ServiceAttended svc ∨ e.answers svc = true ∨ n.app.EntersReady (env, e)) :
    (deliver api cfg env source n e).1.ServiceAttended svc := by
  intro hpending
  have hregister : Registers api cfg.exposed issued ExecutionContext.kadServiceQueries
      Command.queried := hnumbers.registers_queries
  have hstored := (hregister.executeCommands (n.swarm, n.ctx) (n.app.transition env e).2
    hnumbered).2 svc
  refine hstored ?_
  have hcount := n.app.queriesFor_transition env svc e
  have hview : ((n.app.tunnel.transition env e).1.serviceView svc).pending.isSome = true := by
    rw [← AppState.transition_tunnel]
    exact hpending
  rcases (n.app.tunnel.transition_refinesAtService env svc e).wakes hview with
    hqueried | ⟨hwaiting, hanswers⟩
  · exact Or.inr (exists_queried_of_queriesFor (by omega))
  · rcases h with hattended | hyes | henters
    · exact Or.inl (hattended hwaiting)
    · rw [hyes] at hanswers
      cases hanswers
    · right
      refine exists_queried_of_queriesFor ?_
      have hdemand : (n.app.tunnel.serviceView svc).demand = 1 := if_pos hwaiting
      rw [hcount, if_pos henters, hdemand]
      omega

/-- The books survive the bookkeeping of a pass. -/
theorem ServiceBooks.carried (hnumbers : api.Numbers issued api.getProviders)
    (h : ServiceBooks issued svc since n) (hcarried : Carried api n m) :
    ServiceBooks issued svc since m := by
  constructor
  case numbered =>
    intro id hid
    refine hnumbers.operated hcarried.swarm (h.numbered id ?_)
    dsimp only at hid
    rwa [hcarried.queries] at hid
  case attended =>
    intro hready
    rw [hcarried.phase] at hready
    unfold ServiceAttended
    rw [hcarried.tunnel, hcarried.queries]
    exact h.attended hready

/-- The books survive the delivery of an event. -/
theorem ServiceBooks.deliver (hnumbers : api.Numbers issued api.getProviders)
    (h : ServiceBooks issued svc since n) (source : DeliverySource) (e : Event) :
    ServiceBooks issued svc since (deliver api cfg env source n e).1 := by
  constructor
  case numbered =>
    exact (hnumbers.registers_queries.executeCommands (n.swarm, n.ctx) _ h.numbered).1
  case attended =>
    intro hready
    refine attended_deliver hnumbers h.numbered source ?_
    by_cases hbefore : since ∨ n.app.phase = .ready
    · exact Or.inl (h.attended hbefore)
    · rw [not_or] at hbefore
      exact Or.inr (Or.inr ⟨hbefore.2, hready.resolve_left hbefore.1⟩)

/-- The books survive all that a pass does after its event is translated. -/
theorem stable_serviceBooks (hnumbers : api.Numbers issued api.getProviders) :
    Stable api cfg env (ServiceBooks issued svc since) fun _ => True where
  own _ _ := trivial
  booked _ _ _ h := ⟨h.numbered, h.attended⟩
  observed n e h := h.carried hnumbers (carried_observeIdentify api cfg n e)
  delivered source _ e _ h := h.deliver hnumbers source e

/-- An answer that is fed leaves the service attended to, whatever was before. -/
theorem attended_feed (hnumbers : api.Numbers issued api.getProviders)
    (hnumbered : Numbered issued ExecutionContext.kadServiceQueries (n.swarm, n.ctx))
    {e : Event} (he : e.answers svc = true) :
    ServiceBooks issued svc since (n.feed api cfg env e).1 := by
  have hplain : e.isPlain = true := by
    cases e <;> first | rfl | cases he
  refine (stable_serviceBooks hnumbers).feed_of_deliver hplain ?_
  exact ⟨(hnumbers.registers_queries.executeCommands (n.swarm, n.ctx) _ hnumbered).1,
    fun _ => attended_deliver hnumbers hnumbered .eventList (Or.inr (Or.inl he))⟩

/-- The branch for swarm events keeps the books. -/
theorem ServiceBooks.onSwarmEvent (hnumbers : api.Numbers issued api.getProviders)
    (h : ServiceBooks issued svc since n) (event : SwarmEvent) {swarm : Sw}
    (hissued : issued n.swarm ⊆ issued swarm) (probe : Option (Option (Ipv4Addr × UInt16))) :
    ServiceBooks issued svc since (n.onSwarmEvent api cfg env event swarm probe).1 := by
  have hnext : ServiceBooks issued svc since { n with swarm := swarm } :=
    ⟨fun id hid => hissued (h.numbered id hid), h.attended⟩
  obtain ⟨m, synthetic, hcarried, hbooked, hnode, hevents⟩ :=
    prepare_carried api cfg env { n with swarm := swarm } event probe
  have hm := hnext.carried hnumbers hcarried
  have htranslated := translateSwarmEvent_translated env cfg.bootstrapPeerIds m.ctx
    (api.isConnected m.swarm) event
  change ServiceBooks issued svc since (feedAll api cfg env
    (prepare api cfg env { n with swarm := swarm } event probe).1
    (prepare api cfg env { n with swarm := swarm } event probe).2.1).1
  rw [hnode, hevents]
  have hfeedAll {l : NodeState Sw} (hl : ServiceBooks issued svc since l) (es : List Event) :
      ServiceBooks issued svc since (l.feedAll api cfg env es).1 :=
    (stable_serviceBooks hnumbers).feedAll (fun _ _ _ _ _ => trivial) hl
  generalize (translateSwarmEvent env cfg.bootstrapPeerIds m.ctx (api.isConnected m.swarm)
    event).1 = events, (translateSwarmEvent env cfg.bootstrapPeerIds m.ctx
      (api.isConnected m.swarm) event).2 = ctx at htranslated
  cases htranslated with
  | quiet => exact hfeedAll hm _
  | connected => exact hfeedAll hm _
  | dialFailed => exact hfeedAll hm _
  | @lookedUp id target =>
    have hforgot : ServiceBooks issued svc since { m with
        ctx := { m.ctx with kadTunnelQueries := m.ctx.kadTunnelQueries.erase id } } :=
      ⟨hm.numbered, hm.attended⟩
    exact hfeedAll hforgot _
  | @answered id result name e hquery hone he =>
    have hnumbered : Numbered issued ExecutionContext.kadServiceQueries
        (m.swarm, { m.ctx with kadServiceQueries := m.ctx.kadServiceQueries.erase id }) :=
      fun id' hid' => hm.numbered id' (FiniteMap.contains_of_contains_erase hid')
    by_cases hname : name = svc
    · subst hname
      rw [hbooked.synthetic_eq_nil rfl, hone, List.nil_append, feedAll_singleton]
      exact attended_feed hnumbers hnumbered he
    · have hforgot : ServiceBooks issued svc since { m with
          ctx := { m.ctx with kadServiceQueries := m.ctx.kadServiceQueries.erase id } } := by
        refine ⟨hnumbered, fun hready hpending => (hm.attended hready hpending).erase ?_⟩
        rw [hquery]
        exact fun heq => hname (Option.some.inj heq)
      exact hfeedAll hforgot _

/-- A pass keeps the books. -/
theorem ServiceBooks.step (hnumbers : api.Numbers issued api.getProviders)
    (h : ServiceBooks issued svc since n) (input : LoopInput Sw)
    (hissued : KeepsIssued issued n input) :
    ServiceBooks issued svc since ((nodeLoop api cfg).step n input).1 := by
  refine (stable_serviceBooks hnumbers).pass input.branch
    (fun h => h.carried hnumbers (carried_onReconnectTimer api input.env n))
    (fun event swarm probe hbranch h => ?_) h
  unfold KeepsIssued at hissued
  rw [hbranch] at hissued
  exact h.onSwarmEvent hnumbers event hissued probe

/-- The loop starts with the books in order. -/
theorem serviceBooks_start (hnumbers : api.Numbers issued api.getProviders)
    (natMapping : NatMapping) (swarm : Sw) :
    ServiceBooks issued svc False (start api cfg env natMapping swarm) := by
  unfold start
  refine ServiceBooks.deliver hnumbers ⟨fun id hid => ?_, fun hready => ?_⟩ .eventList _
  · cases hid
  · rcases hready with hready | hready <;> cases hready

end NodeState

/-! ## Runs -/

section Runs

variable {Sw : Type} (api : SwarmApi Sw) (cfg : NodeConfig) (env : Env) (natMapping : NatMapping)
  (swarm : Sw) {issued : Sw → Set QueryId}

/-- **No lost service lookup.** Once a run of the loop has reached the ready phase, every service
that intents wait for is what some open provider query is for, after every pass. -/
theorem service_lookups_never_lost (hnumbers : api.Numbers issued api.getProviders)
    (svc : ServiceName) (before after : List (LoopInput Sw))
    (hissued : (nodeLoop api cfg).Guarded (KeepsIssued issued)
      (.start api cfg env natMapping swarm) (before ++ after))
    (hready : ((nodeLoop api cfg).after (.start api cfg env natMapping swarm) before).app.phase =
      .ready) :
    (nodeLoop api cfg).Always (NodeState.ServiceAttended svc)
      ((nodeLoop api cfg).after (.start api cfg env natMapping swarm) before) after := by
  obtain ⟨hbefore, hafter⟩ := Mealy.Machine.guarded_append.mp hissued
  have hbooks : NodeState.ServiceBooks issued svc False
      ((nodeLoop api cfg).after (.start api cfg env natMapping swarm) before) :=
    hbefore.invariant (NodeState.serviceBooks_start hnumbers natMapping swarm)
      fun n input h hinput => h.step hnumbers input hinput
  have hsince : NodeState.ServiceBooks issued svc True
      ((nodeLoop api cfg).after (.start api cfg env natMapping swarm) before) :=
    ⟨hbooks.numbered, fun _ => hbooks.attended (Or.inr hready)⟩
  have halways : (nodeLoop api cfg).Always (NodeState.ServiceBooks issued svc True)
      ((nodeLoop api cfg).after (.start api cfg env natMapping swarm) before) after :=
    hafter.always hsince fun n input h hinput => h.step hnumbers input hinput
  exact halways.mono fun n h => h.attended (Or.inl trivial)

end Runs

/-- The ids the sample swarm has issued. -/
def SampleSwarm.issued (sw : SampleSwarm) : Set QueryId := {id | id.id < sw.queries}

/-- An operation on the sample swarm never takes back a number. -/
theorem SampleSwarm.queries_le {sw sw' : SampleSwarm} (h : sampleApi.Operates sw sw') :
    sw.queries ≤ sw'.queries := by
  cases h with
  | dial => exact le_rfl
  | request => exact le_rfl
  | bootstrap => exact Nat.le_succ _
  | getClosestPeers => exact Nat.le_succ _
  | getProviders => exact Nat.le_succ _

/-- The sample swarm numbers its provider queries. -/
theorem sampleApi_numbers_queries :
    sampleApi.Numbers SampleSwarm.issued sampleApi.getProviders where
  fresh sw _ := lt_irrefl sw.queries
  recorded sw _ := Nat.lt_succ_self sw.queries
  kept _ _ h _ hid := lt_of_lt_of_le hid (SampleSwarm.queries_le h)

/-- An event of the sample swarm finds at least as many queries counted as before. -/
def CountsOn (n : NodeState SampleSwarm) (input : LoopInput SampleSwarm) : Prop :=
  match input.branch with
  | .swarmEvent _ swarm _ => n.swarm.queries ≤ swarm.queries
  | _ => True

instance (n : NodeState SampleSwarm) (input : LoopInput SampleSwarm) :
    Decidable (CountsOn n input) := by
  unfold CountsOn
  split <;> infer_instance

theorem CountsOn.keepsIssued {n : NodeState SampleSwarm} {input : LoopInput SampleSwarm}
    (h : CountsOn n input) : KeepsIssued SampleSwarm.issued n input := by
  unfold CountsOn at h
  unfold KeepsIssued
  split
  · rename_i hbranch
    rw [hbranch] at h
    exact fun id hid => lt_of_lt_of_le hid h
  · trivial

/-- The first query fails, its failure is reported twice, and the second query finds nothing. -/
def unansweredRun : List (LoopInput SampleSwarm) :=
  [⟨.sorted, .swarmEvent (.behaviour (.kadGetProviders ⟨0⟩ (.error "timeout"))) ⟨[], 1⟩ none⟩,
    ⟨.sorted, .swarmEvent (.behaviour (.kadGetProviders ⟨0⟩ (.error "timeout"))) ⟨[], 2⟩ none⟩,
    ⟨.sorted, .swarmEvent (.behaviour (.kadGetProviders ⟨1⟩ (.foundProviders ∅))) ⟨[], 2⟩ none⟩]

/-- There is an open query after every pass. -/
theorem service_lookups_never_lost_unanswered :
    (nodeLoop sampleApi serviceConfig).Always (NodeState.ServiceAttended webIntent.1)
      ((nodeLoop sampleApi serviceConfig).after
        (.start sampleApi serviceConfig .sorted .unknown ⟨[], 0⟩) []) unansweredRun := by
  have hcounts : (nodeLoop sampleApi serviceConfig).Guarded CountsOn
      (.start sampleApi serviceConfig .sorted .unknown ⟨[], 0⟩) ([] ++ unansweredRun) := by
    decide
  exact service_lookups_never_lost sampleApi serviceConfig .sorted .unknown ⟨[], 0⟩
    sampleApi_numbers_queries webIntent.1 [] unansweredRun
    (hcounts.mono fun _ _ => CountsOn.keepsIssued) (by decide)

end Punchgate
