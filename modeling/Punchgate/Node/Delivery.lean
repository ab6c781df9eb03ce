import Punchgate.Node.Link
import Punchgate.Node.Run
import Punchgate.State.Composition
import Mathlib.Data.List.Destutter

/-!
# Deliveries at one peer

What the node loop holds for one peer is a link of the connection bookkeeping and a
view of the tunnel machine. Delivering an event changes the view while the link stays,
arming changes both. The rules of this file carry a property of this slice through
the event list of a pass, together with a record of every delivery.
-/

namespace Punchgate

/-- What the node loop holds for one peer. -/
@[ext] structure PeerSlice where
  /-- The slice of the connection bookkeeping. -/
  link : PeerLink
  /-- The slice of the tunnel machine. -/
  view : PeerView
  deriving DecidableEq

namespace PeerSlice

/-- Arming would start an attempt for the peer. -/
def Armable (x : PeerSlice) : Prop := x.link.Startable ∧ x.view.intent = true

/-- The slice after both machines have begun an attempt. -/
def begin (x : PeerSlice) (attemptId : ℕ) : PeerSlice where
  link := x.link.start attemptId
  view := { x.view with session := some ⟨attemptId, .punching, false⟩ }

/-- What arming makes of a slice. -/
inductive Armed (x : PeerSlice) : PeerSlice → Prop
  /-- No attempt is due. -/
  | unchanged (h : ¬x.Armable) : Armed x x
  /-- An attempt is begun. -/
  | begun (attemptId : ℕ) (h : x.Armable) : Armed x (x.begin attemptId)

/-- What an event makes of a slice while the bookkeeping stays as it is. Only the failure
of the active attempt is delivered. -/
inductive Told (p : PeerId) (e : Event) (x : PeerSlice) : PeerSlice → Prop
  /-- The tunnel machine reacts to the event. -/
  | intro {s : TunnelState} {v : PeerView} {cs : List Command} (hview : s.view p = x.view)
      (hfailed : ∀ a, e.failedAttempt = some (p, a) → x.link.attempt = some a)
      (h : PeerStep s p e v cs) : Told p e x ⟨x.link, v⟩

/-- An attempt just begun keeps another one from being started. -/
theorem not_startable_begin (x : PeerSlice) (a : ℕ) : ¬(x.begin a).link.Startable := by
  rintro ⟨_, h⟩
  cases h

/-- Arming again does not begin a second attempt. -/
theorem begin_once (x y : PeerSlice) (a : ℕ) (h : y = x ∨ ∃ a, x.Armable ∧ y = x.begin a)
    (harm : y.Armable) : y.begin a = x ∨ ∃ b, x.Armable ∧ y.begin a = x.begin b := by
  rcases h with rfl | ⟨b, _, rfl⟩
  · exact Or.inr ⟨a, harm, rfl⟩
  · exact absurd harm.1 (not_startable_begin x b)

/-- Arming leaves a slice alone for which no attempt is due. -/
theorem Armed.eq_of_not {x y : PeerSlice} (h : x.Armed y) (hnot : ¬x.Armable) : y = x := by
  cases h with
  | unchanged => rfl
  | begun a h => exact absurd h hnot

/-- An event that has nothing to do with the peer changes nothing. -/
theorem Told.eq_of_quiet {p : PeerId} {e : Event} {x y : PeerSlice} (h : x.Told p e y)
    (hsubject : e.subject ≠ some p) (hhands : e.handsOver = false) : y = x := by
  cases h with
  | intro hview _ h =>
    rw [(h.eq_of_quiet hsubject hhands).1, hview]

/-- Being told of its attempt completes the beginning of one. -/
theorem Told.eq_begin {p : PeerId} {a : ℕ} {x y : PeerSlice}
    (h : PeerSlice.Told p (.holePunchAttemptStarted p a) ⟨x.link.start a, x.view⟩ y) :
    y = x.begin a := by
  cases h with
  | intro hview _ h =>
    cases h with
    | idle hsubject => exact absurd rfl hsubject
    | failureIgnored he => cases he
    | retriesExhausted he => cases he
    | retryScheduled he => cases he
    | started =>
      dsimp only at hview
      rw [hview]
      rfl

/-- The tunnel machine tells an event. -/
theorem Told.of_transition {p : PeerId} {x : PeerSlice} {s : TunnelState} (env : Env) {e : Event}
    (hview : s.view p = x.view)
    (hfailed : ∀ a, e.failedAttempt = some (p, a) → x.link.attempt = some a) :
    x.Told p e ⟨x.link, (s.transition env e).1.view p⟩ :=
  .intro hview hfailed (s.transition_refines env p e)

/-- Telling changes the view only. -/
theorem Told.link_eq {p : PeerId} {e : Event} {x y : PeerSlice} (h : x.Told p e y) :
    y.link = x.link := by
  cases h
  rfl

end PeerSlice

/-- The slice of a peer. -/
def NodeState.slice {Sw : Type} (n : NodeState Sw) (p : PeerId) : PeerSlice :=
  ⟨n.conn.link p, n.app.tunnel.view p⟩

namespace Delivery

/-- The slice of a peer before the event is delivered. -/
def sliceBefore (d : Delivery) (p : PeerId) : PeerSlice := ⟨d.conn.link p, d.before.tunnel.view p⟩

/-- The slice of a peer after the event was delivered. -/
def sliceAfter (d : Delivery) (p : PeerId) : PeerSlice := ⟨d.conn.link p, d.after.tunnel.view p⟩

/-- A delivery is a step of the peer's slice that ends in the property, and a failed
attempt is delivered while it is active and the property holds. -/
structure Upholds (d : Delivery) (p : PeerId) (J : PeerSlice → Prop) : Prop where
  /-- The tunnel machine has reacted to the event. -/
  step : PeerStep d.before.tunnel p d.event (d.after.tunnel.view p) (commandsFor p d.commands)
  /-- The property holds after the event. -/
  after : J (d.sliceAfter p)
  /-- A failed attempt is the active one. -/
  failed : ∀ a, d.event.failedAttempt = some (p, a) →
    (d.conn.link p).attempt = some a ∧ J (d.sliceBefore p)

end Delivery

/-- A property holds of a peer's slice in the end, and every delivery upholds it. -/
structure Yields {Sw : Type} (r : NodeState Sw × List Delivery) (p : PeerId)
    (J : PeerSlice → Prop) : Prop where
  /-- The property holds in the end. -/
  slice : J (r.1.slice p)
  /-- Every delivery upholds it. -/
  upholds : ∀ d ∈ r.2, d.Upholds p J

/-- A weaker property is upheld as well. -/
theorem Delivery.Upholds.mono {d : Delivery} {p : PeerId} {J J' : PeerSlice → Prop}
    (h : d.Upholds p J) (himp : ∀ x, J x → J' x) : d.Upholds p J' :=
  ⟨h.step, himp _ h.after, fun a ha => ⟨(h.failed a ha).1, himp _ (h.failed a ha).2⟩⟩

/-- A weaker property is yielded as well. -/
theorem Yields.mono {Sw : Type} {r : NodeState Sw × List Delivery} {p : PeerId}
    {J J' : PeerSlice → Prop} (h : Yields r p J) (himp : ∀ x, J x → J' x) : Yields r p J' :=
  ⟨himp _ h.slice, fun d hd => (h.upholds d hd).mono himp⟩

/-- A property of the first part carries over to the second one. -/
theorem Yields.append {Sw : Type} {n m : NodeState Sw} {ds es : List Delivery} {p : PeerId}
    {J : PeerSlice → Prop} (h : Yields (n, ds) p J) (h' : Yields (m, es) p J) :
    Yields (m, ds ++ es) p J := by
  refine ⟨h'.slice, fun d hd => ?_⟩
  rcases List.mem_append.mp hd with hd | hd
  · exact h.upholds d hd
  · exact h'.upholds d hd

/-- The targets of arming are the peers some tunnel asks for. -/
theorem TunnelState.mem_holepunchTargetPeers {env : Env} {s : TunnelState} {p : PeerId} :
    p ∈ s.holepunchTargetPeers env ↔ (s.view p).intent = true := by
  have hdestutter' (xs : List PeerId) (x : PeerId) :
      p ∈ xs.destutter' (· ≠ ·) x ↔ p = x ∨ p ∈ xs := by
    induction xs generalizing x with
    | nil => simp
    | cons y xs ih =>
      by_cases h : x = y
      · subst h
        simp [List.destutter', ih]
      · simp [List.destutter', h, ih]
  have hdestutter (xs : List PeerId) : p ∈ xs.destutter (· ≠ ·) ↔ p ∈ xs := by
    cases xs with
    | nil => rfl
    | cons x xs => simpa [List.destutter_cons'] using hdestutter' xs x
  unfold holepunchTargetPeers
  rw [hdestutter, List.mem_insertionSort, List.mem_append, env.peerOrder.mem_iff,
    env.peerOrder.mem_iff, FiniteMap.mem_keys, FiniteMap.mem_keys, PeerView.intent,
    Bool.or_eq_true]
  rfl

namespace NodeState

variable {Sw : Type} (api : SwarmApi Sw) (cfg : NodeConfig) (env : Env) {p q : PeerId}
  {J : PeerSlice → Prop}

/-! ## One delivery -/

/-- A delivery is told to the slice of every peer. -/
theorem deliver_yields (source : DeliverySource) (n : NodeState Sw) (e : Event)
    (hfailed : ∀ a, e.failedAttempt = some (p, a) →
      (n.conn.link p).attempt = some a ∧ J (n.slice p))
    (h : ∀ y, (n.slice p).Told p e y → J y) :
    Yields ((deliver api cfg env source n e).1, [(deliver api cfg env source n e).2]) p J := by
  have hstep := n.app.transition_refines env p e
  have htold := h _ (.intro rfl (fun a ha => (hfailed a ha).1) hstep)
  refine ⟨htold, fun d hd => ?_⟩
  rw [List.mem_singleton.mp hd]
  exact ⟨hstep, htold, hfailed⟩

/-- A delivery shuts the node down only on request. -/
theorem deliver_phase (source : DeliverySource) (n : NodeState Sw) (e : Event)
    (h : (deliver api cfg env source n e).1.app.phase = .shuttingDown) :
    n.app.phase = .shuttingDown ∨ e = .shutdownRequested :=
  AppState.phase_transition env n.app e h

/-! ## Arming -/

/-- Arming a target begins an attempt for it exactly if one can be started. -/
theorem armPeer_cases (acc : NodeState Sw × List Delivery) (q : PeerId) :
    (¬(acc.1.conn.link q).Startable ∧ armPeer api cfg env acc q = acc) ∨
    (acc.1.conn.link q).Startable ∧ ∃ conn a,
      (∀ p, conn.link p =
        if p = q then (acc.1.conn.link p).start a else acc.1.conn.link p) ∧
      armPeer api cfg env acc q =
        ((deliver api cfg env .arming { acc.1 with conn := conn } (.holePunchAttemptStarted q a)).1,
          acc.2 ++ [(deliver api cfg env .arming { acc.1 with conn := conn }
            (.holePunchAttemptStarted q a)).2]) := by
  unfold armPeer
  rcases acc.1.conn.startHolePunchAttempt_cases env q holePunchTimeout with
    ⟨hnot, heq⟩ | ⟨hstart, conn, a, heq, hlink⟩
  · refine Or.inl ⟨hnot, ?_⟩
    rw [heq]
  · refine Or.inr ⟨hstart, conn, a, hlink, ?_⟩
    rw [heq]

/-- Arming a list of targets keeps what arming a slice keeps. -/
theorem foldl_armPeer_yields {ps : List PeerId} (hJ : ∀ x a, J x → x.Armable → J (x.begin a))
    (acc : NodeState Sw × List Delivery) (hps : p ∈ ps → (acc.1.slice p).view.intent = true)
    (hacc : Yields acc p J) : Yields (ps.foldl (armPeer api cfg env) acc) p J := by
  induction ps generalizing acc with
  | nil => exact hacc
  | cons q ps ih =>
    rw [List.foldl_cons]
    rcases armPeer_cases api cfg env acc q with
      ⟨_, heq⟩ | ⟨hstart, conn, a, hlink, heq⟩
    · rw [heq]
      exact ih acc (fun h => hps (List.mem_cons_of_mem _ h)) hacc
    · have hyields : Yields ((deliver api cfg env .arming { acc.1 with conn := conn }
          (.holePunchAttemptStarted q a)).1, [(deliver api cfg env .arming
            { acc.1 with conn := conn } (.holePunchAttemptStarted q a)).2]) p
          (fun y => J y ∧ (p ∈ ps → y.view.intent = true)) := by
        refine deliver_yields api cfg env .arming _ _ (fun b hb => by cases hb) fun y hy => ?_
        have hlinkp := hlink p
        by_cases hpq : p = q
        · subst hpq
          rw [if_pos rfl] at hlinkp
          have hbefore : NodeState.slice { acc.1 with conn := conn } p =
              ⟨(acc.1.slice p).link.start a, (acc.1.slice p).view⟩ :=
            PeerSlice.ext hlinkp rfl
          rw [hbefore] at hy
          rw [hy.eq_begin]
          have hintent := hps (List.mem_cons_self ..)
          exact ⟨hJ _ a hacc.slice ⟨hstart, hintent⟩, fun _ => hintent⟩
        · rw [if_neg hpq] at hlinkp
          have hbefore : NodeState.slice { acc.1 with conn := conn } p = acc.1.slice p :=
            PeerSlice.ext hlinkp rfl
          have hsubject : (Event.holePunchAttemptStarted q a).subject ≠ some p := fun h =>
            hpq (Option.some.inj h).symm
          rw [hy.eq_of_quiet hsubject rfl, hbefore]
          exact ⟨hacc.slice, fun h => hps (List.mem_cons_of_mem _ h)⟩
      rw [heq]
      refine ih _ (fun h => hyields.slice.2 h) ⟨hyields.slice.1, fun d hd => ?_⟩
      rcases List.mem_append.mp hd with hd | hd
      · exact hacc.upholds d hd
      · exact (hyields.upholds d hd).mono fun _ h => h.1

/-- No attempt can be started for a peer once one was, or could not be, started for it. -/
theorem foldl_armPeer_not_startable {ps : List PeerId} (acc : NodeState Sw × List Delivery)
    (h : p ∈ ps ∨ ¬(acc.1.conn.link p).Startable) :
    ¬((ps.foldl (armPeer api cfg env) acc).1.conn.link p).Startable := by
  induction ps generalizing acc with
  | nil => exact h.resolve_left (List.not_mem_nil)
  | cons q ps ih =>
    refine ih _ ?_
    rcases armPeer_cases api cfg env acc q with
      ⟨hnot, heq⟩ | ⟨hstart, conn, a, hlink, heq⟩
    · rw [heq]
      rcases h with h | h
      · rcases List.mem_cons.mp h with rfl | h
        · exact Or.inr hnot
        · exact Or.inl h
      · exact Or.inr h
    · rw [heq]
      change p ∈ ps ∨ ¬(conn.link p).Startable
      rw [hlink p]
      by_cases hpq : p = q
      · rw [if_pos hpq]
        exact Or.inr (PeerSlice.not_startable_begin (acc.1.slice p) a)
      · rw [if_neg hpq]
        rcases h with h | h
        · exact Or.inl ((List.mem_cons.mp h).resolve_left hpq)
        · exact Or.inr h

/-- Arming keeps what arming a slice keeps. -/
theorem arm_yields (hJ : ∀ x a, J x → x.Armable → J (x.begin a)) (n : NodeState Sw)
    (h : J (n.slice p)) : Yields (n.armHolePunchForTunnelTargets api cfg env) p J := by
  unfold armHolePunchForTunnelTargets
  split
  · exact ⟨h, fun d hd => by cases hd⟩
  · exact foldl_armPeer_yields api cfg env hJ _ (fun hp => TunnelState.mem_holepunchTargetPeers.mp hp)
      ⟨h, fun d hd => by cases hd⟩

/-- Arming begins an attempt for a peer exactly if one is due. -/
theorem arm_armed (n : NodeState Sw) (hphase : n.app.phase ≠ .shuttingDown) :
    (n.slice p).Armed ((n.armHolePunchForTunnelTargets api cfg env).1.slice p) := by
  have hslice := (arm_yields api cfg env (n.slice p).begin_once n (Or.inl rfl)).slice
  rcases hslice with heq | ⟨a, harm, heq⟩
  · rw [heq]
    refine .unchanged fun harm => ?_
    have hnot : ¬((n.armHolePunchForTunnelTargets api cfg env).1.slice p).link.Startable := by
      unfold armHolePunchForTunnelTargets
      rw [if_neg hphase]
      exact foldl_armPeer_not_startable api cfg env _
        (Or.inl (TunnelState.mem_holepunchTargetPeers.mpr harm.2))
    rw [heq] at hnot
    exact hnot harm.1
  · rw [heq]
    exact .begun a harm

/-- Arming leaves the phase of the node alone. -/
theorem arm_phase (n : NodeState Sw) :
    (n.armHolePunchForTunnelTargets api cfg env).1.app.phase = n.app.phase := by
  unfold armHolePunchForTunnelTargets
  split
  · rfl
  · refine List.foldlRecOn (n.app.tunnel.holepunchTargetPeers env) (armPeer api cfg env)
      (motive := fun acc => acc.1.app.phase = n.app.phase) (b := (n, [])) rfl fun acc hacc q _ => ?_
    rcases armPeer_cases api cfg env acc q with ⟨_, heq⟩ | ⟨_, conn, a, _, heq⟩
    · rw [heq]
      exact hacc
    · rw [heq]
      exact hacc

/-! ## One event of the event list -/

/-- A reported failure is attributed to the active attempt, anything else is passed on. -/
theorem attributeFailure_eq_some {conn : ConnectionStateMachine} {e e' : Event}
    (he : e.failedAttempt = none) (h : attributeFailure conn e = some e') :
    (e' = e ∨ ∃ q a reason, e = .holePunchFailed q reason ∧
      e' = .holePunchAttemptFailed q a reason) ∧
    ∀ p a, e'.failedAttempt = some (p, a) → (conn.link p).attempt = some a := by
  cases e with
  | holePunchFailed q reason =>
    obtain ⟨stats, hstats, rfl⟩ := Option.map_eq_some_iff.mp h
    refine ⟨Or.inr ⟨q, _, reason, rfl, rfl⟩, fun p a ha => ?_⟩
    cases ha
    rw [← ConnectionStateMachine.activeAttemptStats_map, hstats]
    rfl
  | holePunchAttemptFailed => cases he
  | holePunchAttemptTimeout => cases he
  | _ =>
    cases h
    refine ⟨Or.inl rfl, fun p a ha => by cases ha⟩

/-- Observing an identify message is no concern of the state machines. -/
theorem observeIdentify_frame (n : NodeState Sw) (e : Event) :
    (n.observeIdentify api cfg e).conn = n.conn ∧ (n.observeIdentify api cfg e).app = n.app := by
  cases e with
  | peerIdentified peer addrs observed =>
    unfold observeIdentify adoptObservation
    dsimp only
    split <;> split
    · split <;> exact ⟨rfl, rfl⟩
    · exact ⟨rfl, rfl⟩
    · split <;> exact ⟨rfl, rfl⟩
    · exact ⟨rfl, rfl⟩
  | _ => exact ⟨rfl, rfl⟩

/-- Observing an identify message changes no slice. -/
theorem observeIdentify_slice (n : NodeState Sw) (e : Event) :
    (n.observeIdentify api cfg e).slice p = n.slice p := by
  unfold slice
  rw [(observeIdentify_frame api cfg n e).1, (observeIdentify_frame api cfg n e).2]

/-- Feeding an event keeps what telling it and arming keep. -/
theorem feed_yields {e : Event} (n : NodeState Sw) (he : e.failedAttempt = none)
    (harm : ∀ x a, J x → x.Armable → J (x.begin a)) (h : J (n.slice p))
    (hstep : ∀ c e', attributeFailure c e = some e' → ∀ y, (n.slice p).Told p e' y → J y) :
    Yields (n.feed api cfg env e) p J := by
  unfold feed
  split
  · exact ⟨h, fun d hd => by cases hd⟩
  · rename_i e' he'
    have hfailed := (attributeFailure_eq_some he he').2
    have hslice := observeIdentify_slice api cfg n e' (p := p)
    have htold := deliver_yields api cfg env .eventList (n.observeIdentify api cfg e') e' (J := J)
      (p := p) (fun a ha => by
        rw [hslice, (observeIdentify_frame api cfg n e').1]
        exact ⟨hfailed p a ha, h⟩) fun y hy => by
        rw [hslice] at hy
        exact hstep _ e' he' y hy
    exact htold.append (arm_yields api cfg env harm _ htold.slice)

/-- Feeding an event tells it to every peer, unless it is the failure of no attempt, and
arms. -/
theorem feed_armed {e : Event} (n : NodeState Sw) (he : e.failedAttempt = none)
    (hphase : (n.feed api cfg env e).1.app.phase ≠ .shuttingDown) :
    ((n.feed api cfg env e).1.slice p = n.slice p ∧ attributeFailure n.conn e = none) ∨
    ∃ e', attributeFailure n.conn e = some e' ∧
      (∀ a, e'.failedAttempt = some (p, a) → (n.slice p).link.attempt = some a) ∧
      PeerSlice.Armed ⟨(n.slice p).link, (n.app.tunnel.transition env e').1.view p⟩
        ((n.feed api cfg env e).1.slice p) := by
  unfold feed at hphase ⊢
  split
  · rename_i hnone
    exact Or.inl ⟨rfl, hnone⟩
  · rename_i e' he'
    rw [he'] at hphase
    obtain ⟨hconn, happ⟩ := observeIdentify_frame api cfg n e'
    refine Or.inr ⟨e', he', fun a => (attributeFailure_eq_some he he').2 p a, ?_⟩
    have harmed := arm_armed api cfg env (p := p)
      (deliver api cfg env .eventList (n.observeIdentify api cfg e') e').1
      fun h => hphase ((arm_phase api cfg env _).trans h)
    have hslice : (deliver api cfg env .eventList (n.observeIdentify api cfg e') e').1.slice p =
        ⟨(n.slice p).link, (n.app.tunnel.transition env e').1.view p⟩ := by
      refine PeerSlice.ext (congrArg (ConnectionStateMachine.link · p) hconn) ?_
      change ((n.observeIdentify api cfg e').app.transition env e').1.tunnel.view p = _
      rw [happ, AppState.transition_tunnel]
    rw [hslice] at harmed
    exact harmed

/-- Feeding an event shuts the node down only on request. -/
theorem feed_phase {e : Event} (n : NodeState Sw)
    (h : (n.feed api cfg env e).1.app.phase = .shuttingDown) :
    n.app.phase = .shuttingDown ∨ e = .shutdownRequested := by
  unfold feed at h
  split at h
  · exact Or.inl h
  · rename_i e' he'
    dsimp only at h
    rw [arm_phase] at h
    rcases deliver_phase api cfg env .eventList _ e' h with h | rfl
    · rw [(observeIdentify_frame api cfg n e').2] at h
      exact Or.inl h
    · refine Or.inr ?_
      cases e with
      | holePunchFailed =>
        obtain ⟨_, _, heq⟩ := Option.map_eq_some_iff.mp he'
        cases heq
      | holePunchAttemptFailed =>
        simp only [attributeFailure] at he'
        split at he'
        · split at he' <;> cases he'
        · cases he'
      | _ => cases he' <;> rfl

/-! ## The event list -/

/-- Feeding an event list keeps what telling its events and arming keep. -/
theorem feedAll_yields {es : List Event} (hes : ∀ e ∈ es, e.failedAttempt = none)
    (harm : ∀ x a, J x → x.Armable → J (x.begin a))
    (hstep : ∀ e ∈ es, ∀ c e', attributeFailure c e = some e' →
      ∀ x y, J x → PeerSlice.Told p e' x y → J y) (n : NodeState Sw) (h : J (n.slice p)) :
    Yields (n.feedAll api cfg env es) p J := by
  induction es generalizing n with
  | nil => exact ⟨h, fun d hd => by cases hd⟩
  | cons e es ih =>
    have hfeed := feed_yields api cfg env n (hes e (List.mem_cons_self ..)) harm h
      fun c e' he' y => hstep e (List.mem_cons_self ..) c e' he' _ y h
    unfold feedAll
    dsimp only
    split
    · exact hfeed
    · exact hfeed.append (ih (fun e he => hes e (List.mem_cons_of_mem _ he))
        (fun e he => hstep e (List.mem_cons_of_mem _ he)) _ hfeed.slice)

/-- Feeding an event list shuts the node down only on request. -/
theorem feedAll_phase {es : List Event} (n : NodeState Sw) (hes : Event.shutdownRequested ∉ es)
    (h : (n.feedAll api cfg env es).1.app.phase = .shuttingDown) :
    n.app.phase = .shuttingDown := by
  induction es generalizing n with
  | nil => exact h
  | cons e es ih =>
    rw [List.mem_cons, not_or] at hes
    unfold feedAll at h
    dsimp only at h
    split at h
    · exact (feed_phase api cfg env n h).resolve_right fun heq => hes.1 heq.symm
    · rename_i hphase
      exact absurd (ih _ hes.2 h) hphase

/-- The rest of an event list is fed to the node its first event has led to. -/
theorem feedAll_cons {e : Event} (n : NodeState Sw) (es : List Event)
    (he : e ≠ .shutdownRequested) (hphase : n.app.phase ≠ .shuttingDown) :
    n.feedAll api cfg env (e :: es) =
      (((n.feed api cfg env e).1.feedAll api cfg env es).1, (n.feed api cfg env e).2 ++
        ((n.feed api cfg env e).1.feedAll api cfg env es).2) := by
  have hphase' : (n.feed api cfg env e).1.app.phase ≠ .shuttingDown := fun h =>
    (feed_phase api cfg env n h).elim hphase he
  rw [feedAll]
  simp only [if_neg hphase']

/-- An event list with one event feeds that event. -/
theorem feedAll_singleton (n : NodeState Sw) (e : Event) :
    (n.feedAll api cfg env [e]).1 = (n.feed api cfg env e).1 := by
  unfold feedAll
  dsimp only
  split <;> rfl

/-- The last event of an event list is fed to the node the others have led to. -/
theorem feedAll_concat {es : List Event} (n : NodeState Sw) (e : Event)
    (hes : Event.shutdownRequested ∉ es) (hphase : n.app.phase ≠ .shuttingDown) :
    n.feedAll api cfg env (es ++ [e]) =
      (((n.feedAll api cfg env es).1.feed api cfg env e).1, (n.feedAll api cfg env es).2 ++
        ((n.feedAll api cfg env es).1.feed api cfg env e).2) := by
  induction es generalizing n with
  | nil =>
    simp [feedAll]
  | cons e' es ih =>
    rw [List.mem_cons, not_or] at hes
    have hne : e' ≠ .shutdownRequested := fun heq => hes.1 heq.symm
    have hphase' : (n.feed api cfg env e').1.app.phase ≠ .shuttingDown := fun h =>
      (feed_phase api cfg env n h).elim hphase hne
    rw [List.cons_append, feedAll_cons api cfg env n _ hne hphase,
      feedAll_cons api cfg env n _ hne hphase, ih _ hes.2 hphase']
    simp only [List.append_assoc]

end NodeState

end Punchgate
