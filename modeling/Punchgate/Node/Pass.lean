import Punchgate.Node.Prepare

/-!
# A pass at one peer

`PeerPass` says what one pass of the loop can make of the slice of a peer: at most one
event is told to the slice, after its link was changed by the bookkeeping, and arming
may follow. It abstracts from the swarm, from all other peers, and from everything in
the node that neither machine looks at.
-/

namespace Punchgate

/-- Events after which intents can wait for a direct connection to a peer. -/
def Event.mayQueue (p : PeerId) : Event → Bool
  | .tunnelPeerConnected q true | .dhtPeerLookupComplete q true
  | .dhtServiceResolved _ ((q, true) :: _) => q = p
  | _ => false

/-- Events that accompany a new or a lost connection of another peer. -/
def Event.elsewhere (p : PeerId) : Event → Bool
  | .bootstrapConnected _ _ => true
  | .tunnelPeerConnected q _ | .connectionLost q _ | .holePunchAttemptStarted q _ => q ≠ p
  | _ => false

/-- What a pass of the loop can make of the slice of a peer. -/
inductive PeerPass (env : Env) (s : TunnelState) (p : PeerId) (x : PeerSlice) :
    List Event → PeerSlice → Prop
  /-- Nothing happens to the peer. -/
  | idle {events} (h : ∀ e ∈ events, e.mayQueue p = false) : PeerPass env s p x events x
  /-- The peer is armed in the wake of something else. -/
  | begun {events} (a : ℕ) (h : ∀ e ∈ events, e.mayQueue p = false) (harm : x.Armable) :
      PeerPass env s p x events (x.begin a)
  /-- An ordinary event. -/
  | told {e e' z} (he : e.ordinary = true)
      (he' : e' = e ∨ ∃ q a reason, e = .holePunchFailed q reason ∧
        e' = .holePunchAttemptFailed q a reason)
      (hfailed : ∀ a, e'.failedAttempt = some (p, a) → x.link.attempt = some a)
      (harmed : PeerSlice.Armed ⟨x.link, (s.transition env e').1.view p⟩ z) :
      PeerPass env s p x [e] z
  /-- A new relayed connection, with which an attempt starts. -/
  | relayedStarted {events id y z} (a : ℕ) (hintent : x.view.intent = true)
      (hstart : (x.link.openRelayed id).Startable)
      (hevents : ∀ e, e ∈ events ∧ e.mayQueue p = true ↔ e = .tunnelPeerConnected p true)
      (htold : (PeerSlice.begin ⟨x.link.openRelayed id, x.view⟩ a).Told p
        (.tunnelPeerConnected p true) y)
      (harmed : y.Armed z) : PeerPass env s p x events z
  /-- A new relayed connection, with which no attempt starts. -/
  | relayed {events id y z}
      (hnot : ¬(x.view.intent = true ∧ (x.link.openRelayed id).Startable))
      (hevents : ∀ e, e ∈ events ∧ e.mayQueue p = true ↔ e = .tunnelPeerConnected p true)
      (htold : PeerSlice.Told p (.tunnelPeerConnected p true) ⟨x.link.openRelayed id, x.view⟩ y)
      (harmed : y.Armed z) : PeerPass env s p x events z
  /-- A new direct connection. -/
  | direct {events id y z} (h : ∀ e ∈ events, e.mayQueue p = false)
      (htold : PeerSlice.Told p (.tunnelPeerConnected p false) ⟨x.link.openDirect id, x.view⟩ y)
      (harmed : y.Armed z) : PeerPass env s p x events z
  /-- A lost connection. -/
  | closed {id num y z}
      (htold : PeerSlice.Told p (.connectionLost p (x.link.close id num).remaining)
        ⟨x.link.close id num, x.view⟩ y)
      (harmed : y.Armed z) :
      PeerPass env s p x [.connectionLost p (x.link.close id num).remaining] z
  /-- The deadline of a relayed-only peer. -/
  | timedOut {a s' v cs} (hdeadline : x.link.deadline = some a) (hrelay : x.link.relayOnly = true)
      (hview : s'.view p = x.view) (h : PeerStep s' p (.holePunchAttemptTimeout p a) v cs) :
      PeerPass env s p x [] ⟨x.link.expire, v⟩
  /-- The deadline of any other peer. -/
  | expired {a} (hdeadline : x.link.deadline = some a) (hrelay : x.link.relayOnly = false) :
      PeerPass env s p x [] ⟨x.link.expire, x.view⟩

/-! ## Events elsewhere -/

/-- Events elsewhere are told as they are, and to no effect. -/
theorem Event.elsewhere_cases {p : PeerId} {e : Event} (h : e.elsewhere p = true) :
    e.failedAttempt = none ∧ e ≠ .shutdownRequested ∧ e.mayQueue p = false ∧
      (∀ c, NodeState.attributeFailure c e = some e) ∧ e.subject ≠ some p ∧
      e.handsOver = false := by
  cases e with
  | bootstrapConnected =>
    simp [failedAttempt, mayQueue, NodeState.attributeFailure, subject, handsOver]
  | tunnelPeerConnected q relayed =>
    have hq : q ≠ p := by simpa [elsewhere] using h
    cases relayed <;>
      simp [failedAttempt, mayQueue, NodeState.attributeFailure, subject, handsOver, hq]
  | connectionLost q remaining =>
    have hq : q ≠ p := by simpa [elsewhere] using h
    simp [failedAttempt, mayQueue, NodeState.attributeFailure, subject, handsOver, hq]
  | holePunchAttemptStarted q a =>
    have hq : q ≠ p := by simpa [elsewhere] using h
    simp [failedAttempt, mayQueue, NodeState.attributeFailure, subject, handsOver, hq]
  | _ => cases h

namespace NodeState

variable {Sw : Type} (api : SwarmApi Sw) (cfg : NodeConfig) (env : Env) {p : PeerId}

/-- Events elsewhere keep what arming keeps. -/
theorem feedAll_elsewhere {J : PeerSlice → Prop} {es : List Event}
    (hes : ∀ e ∈ es, e.elsewhere p = true) (harm : ∀ x a, J x → x.Armable → J (x.begin a))
    (n : NodeState Sw) (h : J (n.slice p)) : Yields (n.feedAll api cfg env es) p J := by
  refine feedAll_yields api cfg env (fun e he => (Event.elsewhere_cases (hes e he)).1) harm
    (fun e he c e' he' x y hx hy => ?_) n h
  obtain ⟨_, _, _, hattribute, hsubject, hhands⟩ := Event.elsewhere_cases (hes e he)
  rw [hattribute c] at he'
  cases he'
  rw [hy.eq_of_quiet hsubject hhands]
  exact hx

/-- Events elsewhere at most arm a peer. -/
theorem peerPass_elsewhere {s : TunnelState} {es : List Event}
    (hes : ∀ e ∈ es, e.elsewhere p = true) (n : NodeState Sw) :
    PeerPass env s p (n.slice p) es ((n.feedAll api cfg env es).1.slice p) := by
  have hqueue (e : Event) (he : e ∈ es) : e.mayQueue p = false :=
    (Event.elsewhere_cases (hes e he)).2.2.1
  rcases (feedAll_elsewhere api cfg env hes (n.slice p).begin_once n (Or.inl rfl)).slice with
    heq | ⟨a, harm, heq⟩
  · rw [heq]
    exact .idle hqueue
  · rw [heq]
    exact .begun a hqueue harm

/-- Events elsewhere do nothing to a peer that cannot be armed. -/
theorem feedAll_elsewhere_slice {es : List Event} (hes : ∀ e ∈ es, e.elsewhere p = true)
    (n : NodeState Sw) (hnot : ¬(n.slice p).Armable) :
    (n.feedAll api cfg env es).1.slice p = n.slice p :=
  (feedAll_elsewhere api cfg env (J := fun x => x = n.slice p) hes
    (fun _ _ hx harm => absurd (hx ▸ harm) hnot) n rfl).slice

/-- Feeding an event about a connection tells it to its peer and arms. -/
theorem feed_connection {e : Event} (n : NodeState Sw) (hfailed : e.failedAttempt = none)
    (hattribute : ∀ c, attributeFailure c e = some e) (he : e ≠ .shutdownRequested)
    (hphase : n.app.phase ≠ .shuttingDown) :
    ∃ y, (n.slice p).Told p e y ∧ y.Armed ((n.feed api cfg env e).1.slice p) := by
  have hphase' : (n.feed api cfg env e).1.app.phase ≠ .shuttingDown := fun h =>
    (feed_phase api cfg env n h).elim hphase he
  rcases feed_armed api cfg env n hfailed hphase' (p := p) with ⟨_, hnone⟩ | ⟨e', he', hf, harmed⟩
  · rw [hattribute] at hnone
    cases hnone
  · rw [hattribute] at he'
    cases he'
    exact ⟨_, .of_transition env rfl hf, harmed⟩

/-- The end of the event list of a new connection. -/
theorem feedAll_connected {es : List Event} (hes : ∀ e ∈ es, e.elsewhere p = true)
    (n : NodeState Sw) (relayed : Bool) (hnot : ¬(n.slice p).Armable)
    (hphase : n.app.phase ≠ .shuttingDown) :
    ∃ y, (n.slice p).Told p (.tunnelPeerConnected p relayed) y ∧
      y.Armed ((n.feedAll api cfg env (es ++ [.tunnelPeerConnected p relayed])).1.slice p) := by
  have hshutdown : Event.shutdownRequested ∉ es := fun h => by cases hes _ h
  have hslice := feedAll_elsewhere_slice api cfg env hes n hnot
  rw [feedAll_concat api cfg env n _ hshutdown hphase, ← hslice]
  exact feed_connection api cfg env _ rfl (fun _ => rfl) (fun h => by cases h)
    fun h => hphase (feedAll_phase api cfg env n hshutdown h)

/-- The event list of a new connection for which an attempt was started. -/
theorem feedAll_started {es : List Event} (hes : ∀ e ∈ es, e.elsewhere p = true)
    (n : NodeState Sw) {x : PeerSlice} {a : ℕ} (hslice : n.slice p = ⟨x.link.start a, x.view⟩)
    (hphase : n.app.phase ≠ .shuttingDown) :
    ∃ z, (x.begin a).Told p (.tunnelPeerConnected p true) z ∧
      z.Armed ((n.feedAll api cfg env
        (.holePunchAttemptStarted p a :: (es ++ [.tunnelPeerConnected p true]))).1.slice p) := by
  rw [feedAll_cons api cfg env _ _ (fun h => by cases h) hphase]
  obtain ⟨y, htold, harmed⟩ := feed_connection api cfg env (p := p)
    (e := .holePunchAttemptStarted p a) n rfl (fun _ => rfl) (fun h => by cases h) hphase
  rw [hslice] at htold
  have hbegin := PeerSlice.Told.eq_begin htold
  have hnot : ¬y.Armable := fun h => PeerSlice.not_startable_begin x a (hbegin ▸ h.1)
  have hfed : (n.feed api cfg env (.holePunchAttemptStarted p a)).1.slice p = y :=
    harmed.eq_of_not hnot
  obtain ⟨z, htold', harmed'⟩ := feedAll_connected api cfg env hes _ true (hfed.symm ▸ hnot)
    fun h => (feed_phase api cfg env _ h).elim hphase fun h => by cases h
  rw [hfed, hbegin] at htold'
  exact ⟨z, htold', harmed'⟩

/-! ## The timer -/

/-- One due attempt of another peer does nothing to a peer. -/
theorem expireAttempt_of_ne (acc : NodeState Sw × List Delivery) {due : PeerId × ℕ}
    (h : due.1 ≠ p) : (expireAttempt api cfg env acc due).1.slice p = acc.1.slice p := by
  unfold expireAttempt
  split
  · have htold := PeerSlice.Told.of_transition (p := p) (x := acc.1.slice p) (s := acc.1.app.tunnel)
      env (e := .holePunchAttemptTimeout due.1 due.2) rfl fun a ha => by
        cases ha
        exact absurd rfl h
    have hquiet := htold.eq_of_quiet (fun heq => h (Option.some.inj heq)) rfl
    refine PeerSlice.ext rfl ?_
    change (acc.1.app.transition env (.holePunchAttemptTimeout due.1 due.2)).1.tunnel.view p = _
    rw [AppState.transition_tunnel]
    exact congrArg PeerSlice.view hquiet
  · rfl

/-- The due attempts of other peers do nothing to a peer. -/
theorem foldl_expireAttempt_of_notMem {due : List (PeerId × ℕ)}
    (acc : NodeState Sw × List Delivery) (h : p ∉ due.map Prod.fst) :
    (due.foldl (expireAttempt api cfg env) acc).1.slice p = acc.1.slice p := by
  induction due generalizing acc with
  | nil => rfl
  | cons e due ih =>
    rw [List.map_cons, List.mem_cons, not_or] at h
    rw [List.foldl_cons, ih _ h.2]
    exact expireAttempt_of_ne api cfg env acc fun heq => h.1 heq.symm

/-- The due attempts belong to different peers. -/
theorem nodup_due (c : ConnectionStateMachine) (now : Instant) :
    ((c.takeDueHolePunchTimeouts env now).2.map Prod.fst).Nodup := by
  have hentries : ((c.holePunchDeadlines.entries env.peerOrder).map Prod.fst).Nodup := by
    rw [FiniteMap.map_fst_entries]
    exact env.peerOrder.nodup _
  refine List.Nodup.sublist ?_ hentries
  unfold ConnectionStateMachine.takeDueHolePunchTimeouts
  dsimp only
  rw [List.map_map]
  exact List.Sublist.map Prod.fst List.filter_sublist

/-- The due attempt of a peer is told to it while it is reachable over a relay only. -/
theorem expireAttempt_peerPass {acc : NodeState Sw × List Delivery} {s : TunnelState}
    {x : PeerSlice} {a : ℕ} (hdeadline : x.link.deadline = some a)
    (hslice : acc.1.slice p = ⟨x.link.expire, x.view⟩) :
    PeerPass env s p x [] ((expireAttempt api cfg env acc (p, a)).1.slice p) := by
  have hrelay : acc.1.conn.peerIsRelayOnly p = x.link.relayOnly := by
    rw [ConnectionStateMachine.peerIsRelayOnly_eq]
    exact congrArg (PeerLink.relayOnly ∘ PeerSlice.link) hslice
  have hview : acc.1.app.tunnel.view p = x.view := congrArg PeerSlice.view hslice
  have hlink : acc.1.conn.link p = x.link.expire := congrArg PeerSlice.link hslice
  unfold expireAttempt
  rw [hrelay]
  cases hcase : x.link.relayOnly with
  | true =>
    have hstep := acc.1.app.transition_refines env p (.holePunchAttemptTimeout p a)
    have hresult := @PeerPass.timedOut env s p x _ _ _ _ hdeadline hcase hview hstep
    rw [← hlink] at hresult
    exact hresult
  | false =>
    have hresult := @PeerPass.expired env s p x _ hdeadline hcase
    rw [← hslice] at hresult
    exact hresult

/-- The timer branch at one peer. -/
theorem onHolePunchTimer_peerPass (n : NodeState Sw) :
    PeerPass env n.app.tunnel p (n.slice p) [] ((n.onHolePunchTimer api cfg env).1.slice p) := by
  have hlink := n.conn.takeDueHolePunchTimeouts_link env env.now p
  have hnodup := nodup_due env n.conn env.now
  change PeerPass env n.app.tunnel p (n.slice p) []
    (((n.conn.takeDueHolePunchTimeouts env env.now).2.foldl (expireAttempt api cfg env)
      ({ n with conn := (n.conn.takeDueHolePunchTimeouts env env.now).1 }, [])).1.slice p)
  by_cases hp : p ∈ (n.conn.takeDueHolePunchTimeouts env env.now).2.map Prod.fst
  · rw [if_pos hp] at hlink
    obtain ⟨⟨q, a⟩, hmem, rfl⟩ := List.mem_map.mp hp
    have hdeadline := ConnectionStateMachine.deadline_of_mem_due hmem
    obtain ⟨before, after, hdue⟩ := List.append_of_mem hmem
    rw [hdue, List.map_append, List.map_cons, List.nodup_append] at hnodup
    have hafter : q ∉ after.map Prod.fst := (List.nodup_cons.mp hnodup.2.1).1
    have hbefore : q ∉ before.map Prod.fst := fun h =>
      hnodup.2.2 q h q (List.mem_cons_self ..) rfl
    rw [hdue, List.foldl_append, List.foldl_cons, foldl_expireAttempt_of_notMem api cfg env _ hafter]
    have hslice := foldl_expireAttempt_of_notMem api cfg env
      ({ n with conn := (n.conn.takeDueHolePunchTimeouts env env.now).1 }, []) hbefore
    have hstart : NodeState.slice
        { n with conn := (n.conn.takeDueHolePunchTimeouts env env.now).1 } q =
        ⟨(n.slice q).link.expire, (n.slice q).view⟩ := PeerSlice.ext hlink rfl
    rw [hstart] at hslice
    exact expireAttempt_peerPass api cfg env hdeadline hslice
  · rw [if_neg hp] at hlink
    rw [foldl_expireAttempt_of_notMem api cfg env _ hp]
    have hslice : NodeState.slice
        { n with conn := (n.conn.takeDueHolePunchTimeouts env env.now).1 } p = n.slice p :=
      PeerSlice.ext hlink rfl
    rw [hslice]
    exact .idle fun e he => by cases he

/-! ## The branch for swarm events -/

/-- The events in front of a new connection of a peer. -/
theorem translate_established (bootstrapPeers : Finset PeerId) (ctx : ExecutionContext)
    (isConnected : PeerId → Bool) (q : PeerId) (id : ConnectionId) (endpoint : ConnectedPoint) :
    ∃ es, (translateSwarmEvent env bootstrapPeers ctx isConnected
        (.connectionEstablished q id endpoint)).1 =
      es ++ [.tunnelPeerConnected q endpoint.isRelayed] ∧ ∀ p, ∀ e ∈ es, e.elsewhere p = true := by
  refine ⟨if q ∈ bootstrapPeers then [.bootstrapConnected q endpoint.remoteAddress] else [], rfl,
    fun p e he => ?_⟩
  split at he
  · rw [List.mem_singleton.mp he]
    rfl
  · cases he

/-- A new connection of another peer is told elsewhere. -/
theorem elsewhere_connected {q : PeerId} {es : List Event} (hpq : p ≠ q)
    (hes : ∀ e ∈ es, e.elsewhere p = true) (relayed : Bool) :
    ∀ e ∈ es ++ [.tunnelPeerConnected q relayed], e.elsewhere p = true := by
  intro e he
  rcases List.mem_append.mp he with he | he
  · exact hes e he
  · rw [List.mem_singleton.mp he]
    exact decide_eq_true hpq.symm

/-- Only the last event of a new relayed connection lets intents wait. -/
theorem mayQueue_connected {es : List Event} (hes : ∀ e ∈ es, e.mayQueue p = false) (e : Event) :
    e ∈ es ++ [.tunnelPeerConnected p true] ∧ e.mayQueue p = true ↔
      e = .tunnelPeerConnected p true := by
  constructor
  · rintro ⟨he, hqueue⟩
    rcases List.mem_append.mp he with he | he
    · rw [hes e he] at hqueue
      cases hqueue
    · exact List.mem_singleton.mp he
  · rintro rfl
    exact ⟨by simp, by simp [Event.mayQueue]⟩

/-- Feeding a prepared event list, at one peer. -/
theorem feedAll_peerPass {n : NodeState Sw} {event : SwarmEvent}
    {r : NodeState Sw × List Event × List Delivery} (h : Prepared cfg env n event r)
    (hrunning : n.app.phase ≠ .shuttingDown) :
    PeerPass env n.app.tunnel p (n.slice p) r.2.1 ((r.1.feedAll api cfg env r.2.1).1.slice p) := by
  obtain ⟨⟨synthetic, ctx, isConnected, hbooked, hevents⟩, htunnel, hphase, _⟩ := h
  have hphase : r.1.app.phase ≠ .shuttingDown := fun h => hrunning (hphase h)
  have hview : r.1.app.tunnel.view p = (n.slice p).view := by
    rw [htunnel]
    rfl
  have helsewhere (hlink : r.1.conn.link p = n.conn.link p) {es : List Event}
      (hes : ∀ e ∈ es, e.elsewhere p = true) :
      PeerPass env n.app.tunnel p (n.slice p) es ((r.1.feedAll api cfg env es).1.slice p) := by
    have hslice : r.1.slice p = n.slice p := PeerSlice.ext hlink hview
    have hpass := peerPass_elsewhere api cfg env (s := n.app.tunnel) hes r.1
    rw [hslice] at hpass
    exact hpass
  rw [hevents]
  cases hbooked with
  | @relayedStarted q id endpoint d a hrelayed hintent hstart hlink =>
    obtain ⟨es, htranslate, hes⟩ := translate_established env cfg.bootstrapPeerIds ctx isConnected
      q id endpoint
    rw [htranslate, hrelayed]
    by_cases hpq : p = q
    · subst hpq
      have hslice : r.1.slice p =
          ⟨(PeerSlice.link ⟨(n.conn.link p).openRelayed id, n.app.tunnel.view p⟩).start a,
            n.app.tunnel.view p⟩ := by
        refine PeerSlice.ext ?_ hview
        exact (hlink p).trans (if_pos rfl)
      obtain ⟨z, htold, harmed⟩ := feedAll_started api cfg env (hes p) r.1 hslice hphase
      refine .relayedStarted a hintent hstart (fun e => ?_) htold harmed
      have hqueue : ∀ e ∈ (.holePunchAttemptStarted p a :: es : List Event),
          e.mayQueue p = false := by
        intro e he
        rcases List.mem_cons.mp he with rfl | he
        · rfl
        · exact (Event.elsewhere_cases (hes p e he)).2.2.1
      exact mayQueue_connected hqueue e
    · refine helsewhere ((hlink p).trans (if_neg hpq)) fun e he => ?_
      rcases List.mem_append.mp he with he | he
      · rw [List.mem_singleton.mp he]
        exact decide_eq_true (Ne.symm hpq)
      · exact elsewhere_connected hpq (hes p) true e he
  | @relayed q id endpoint d hrelayed hnot hlink =>
    obtain ⟨es, htranslate, hes⟩ := translate_established env cfg.bootstrapPeerIds ctx isConnected
      q id endpoint
    rw [htranslate, hrelayed, List.nil_append]
    by_cases hpq : p = q
    · subst hpq
      have hslice : r.1.slice p = ⟨(n.conn.link p).openRelayed id, n.app.tunnel.view p⟩ :=
        PeerSlice.ext ((hlink p).trans (if_pos rfl)) hview
      obtain ⟨z, htold, harmed⟩ := feedAll_connected api cfg env (hes p) r.1 true
        (fun h => hnot ⟨(hslice ▸ h).2, (hslice ▸ h).1⟩) hphase
      rw [hslice] at htold
      exact .relayed hnot
        (mayQueue_connected fun e he => (Event.elsewhere_cases (hes p e he)).2.2.1) htold harmed
    · exact helsewhere ((hlink p).trans (if_neg hpq)) (elsewhere_connected hpq (hes p) true)
  | @direct q id endpoint d hrelayed hlink =>
    obtain ⟨es, htranslate, hes⟩ := translate_established env cfg.bootstrapPeerIds ctx isConnected
      q id endpoint
    rw [htranslate, hrelayed, List.nil_append]
    by_cases hpq : p = q
    · subst hpq
      have hslice : r.1.slice p = ⟨(n.conn.link p).openDirect id, n.app.tunnel.view p⟩ :=
        PeerSlice.ext ((hlink p).trans (if_pos rfl)) hview
      obtain ⟨z, htold, harmed⟩ := feedAll_connected api cfg env (hes p) r.1 false
        (fun h => by cases (hslice ▸ h).1.1) hphase
      rw [hslice] at htold
      refine .direct (fun e he => ?_) htold harmed
      rcases List.mem_append.mp he with he | he
      · exact (Event.elsewhere_cases (hes p e he)).2.2.1
      · rw [List.mem_singleton.mp he]
        rfl
    · exact helsewhere ((hlink p).trans (if_neg hpq)) (elsewhere_connected hpq (hes p) false)
  | @closed q id num d hlink =>
    change PeerPass env n.app.tunnel p (n.slice p) [.connectionLost q (r.1.conn.link q).remaining]
      ((r.1.feedAll api cfg env [.connectionLost q (r.1.conn.link q).remaining]).1.slice p)
    by_cases hpq : p = q
    · subst hpq
      have hlinkp := (hlink p).trans (if_pos rfl)
      have hslice : r.1.slice p = ⟨(n.conn.link p).close id num, n.app.tunnel.view p⟩ :=
        PeerSlice.ext hlinkp hview
      rw [feedAll_singleton, hlinkp]
      obtain ⟨y, htold, harmed⟩ := feed_connection api cfg env (p := p)
        (e := .connectionLost p ((n.conn.link p).close id num).remaining) r.1 rfl (fun _ => rfl)
        (fun h => by cases h) hphase
      rw [hslice] at htold
      exact .closed htold harmed
    · refine helsewhere ((hlink p).trans (if_neg hpq)) fun e he => ?_
      rw [List.mem_singleton.mp he]
      exact decide_eq_true (Ne.symm hpq)
  | other hevent hlink =>
    have hslice : r.1.slice p = n.slice p := PeerSlice.ext (hlink p) hview
    rw [List.nil_append]
    rcases translateSwarmEvent_ordinary env cfg.bootstrapPeerIds ctx isConnected event hevent with
      hnil | ⟨e, hone, hordinary⟩
    · rw [hnil]
      change PeerPass env n.app.tunnel p (n.slice p) [] (r.1.slice p)
      rw [hslice]
      exact .idle fun e he => by cases he
    · rw [hone, feedAll_singleton]
      have hfailed : e.failedAttempt = none := by
        cases e <;> first | rfl | cases hordinary
      have hphase' : (r.1.feed api cfg env e).1.app.phase ≠ .shuttingDown := fun h =>
        (feed_phase api cfg env r.1 h).elim hphase fun h => by
          rw [h] at hordinary
          cases hordinary
      rcases feed_armed api cfg env r.1 hfailed hphase' (p := p) with
        ⟨hsame, hnone⟩ | ⟨e', he', hattempt, harmed⟩
      · rw [hsame, hslice]
        refine .idle fun f hf => ?_
        rw [List.mem_singleton.mp hf]
        cases e <;> first | rfl | cases hnone
      · rw [hslice, htunnel] at harmed
        rw [hslice] at hattempt
        exact .told hordinary (attributeFailure_eq_some hfailed he').1 hattempt harmed

/-- The event list of a pass. -/
def events (n : NodeState Sw) (input : LoopInput Sw) : List Event :=
  if n.app.phase = .shuttingDown then []
  else
    match input.branch with
    | .swarmEvent event swarm probe =>
      (prepare api cfg input.env { n with swarm := swarm } event probe).2.1
    | _ => []

/-- A reconnect leaves both machines alone. -/
theorem onReconnectTimer_slice (n : NodeState Sw) :
    (n.onReconnectTimer api env).slice p = n.slice p := by
  obtain ⟨_, _, _, heq⟩ := onReconnectTimer_frame api env n
  rw [heq]
  rfl

/-- **Every pass of the loop is one of the abstract passes at every peer.** -/
theorem pass_refines (n : NodeState Sw) (p : PeerId) (input : LoopInput Sw) :
    PeerPass input.env n.app.tunnel p (n.slice p) (n.events api cfg input)
      (((nodeLoop api cfg).step n input).1.slice p) := by
  change PeerPass input.env n.app.tunnel p (n.slice p) (n.events api cfg input)
    ((n.pass api cfg input.env input.branch).1.slice p)
  have hquiet (e : Event) (m : NodeState Sw) (source : DeliverySource) (hm : m.slice p = n.slice p)
      (hsubject : e.subject ≠ some p) (hhands : e.handsOver = false)
      (hfailed : e.failedAttempt = none) :
      (deliver api cfg input.env source m e).1.slice p = n.slice p :=
    (deliver_yields api cfg input.env (J := fun x => x = n.slice p) source m e
      (fun a ha => by rw [hfailed] at ha; cases ha) fun y hy =>
        (hy.eq_of_quiet hsubject hhands).trans hm).slice
  unfold events pass
  by_cases hphase : n.app.phase = .shuttingDown
  · rw [if_pos hphase, if_pos hphase]
    exact .idle fun e he => by cases he
  · rw [if_neg hphase, if_neg hphase]
    cases hbranch : input.branch with
    | swarmEvent event swarm probe =>
      have hprepared := prepare_prepared api cfg input.env { n with swarm := swarm } event probe
      have hpass := feedAll_peerPass api cfg input.env (p := p) hprepared hphase
      exact hpass
    | discoveryDeadline =>
      dsimp only
      split
      · exact .idle fun e he => by cases he
      · have hslice := hquiet .discoveryTimeout { n with discoveryTimeoutFired := true }
          .discoveryDeadline rfl (fun h => by cases h) rfl rfl
        dsimp only
        rw [hslice]
        exact .idle fun e he => by cases he
    | reconnectTimer =>
      dsimp only
      rw [onReconnectTimer_slice]
      exact .idle fun e he => by cases he
    | holePunchTimer => exact onHolePunchTimer_peerPass api cfg input.env n
    | shutdownSignal =>
      have hslice := hquiet .shutdownRequested n .shutdownSignal rfl (fun h => by cases h) rfl rfl
      dsimp only
      rw [hslice]
      exact .idle fun e he => by cases he

end NodeState

end Punchgate
