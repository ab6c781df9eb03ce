import Punchgate.State.Publishing

/-!
# Open provider queries

The tunnel machine does not remember which provider queries are open. An answer leads to at most
one new query in place of the answered one, but a node that becomes ready again, or that takes
intents back after a failed dial, asks without looking whether a query is open. A count beside
the composed machine shows that this is the only way in which queries pile up.
-/

namespace Punchgate

namespace AppState

/-- A step takes intents back under their service. -/
def TakesIntentsBack (a : AppState) (svc : ServiceName) (i : Env × Event) : Prop :=
  (a.tunnel.pendingByService.getD svc []).length <
    ((a.transition i.1 i.2).1.tunnel.pendingByService.getD svc []).length

/-- A step asks for the providers of a service without an answer to an earlier query: the node
becomes ready while intents wait for the service, or takes some back. -/
def AsksAnew (a : AppState) (svc : ServiceName) (i : Env × Event) : Prop :=
  a.EntersReady i ∧ a.tunnel.pendingByService.contains svc = true ∨ a.TakesIntentsBack svc i

instance (a : AppState) (svc : ServiceName) (i : Env × Event) : Decidable (a.AsksAnew svc i) :=
  inferInstanceAs (Decidable ((_ ∧ _) ∨ _ < _))

/-- The number of open provider queries for a service after a step: every answer closes one,
every command opens one. -/
def countOpen (svc : ServiceName) (opened : ℕ) (_ : AppState) (i : Env × Event)
    (cs : List Command) : ℕ :=
  opened - (if i.2.answers svc = true then 1 else 0) + queriesFor svc cs

/-- The composed machine together with the number of open provider queries for a service. -/
def queried (svc : ServiceName) : Mealy.Machine (AppState × ℕ) (Env × Event) Command :=
  machine.withGhost (countOpen svc)

/-- The events come from outside, and only open queries are answered. -/
def AnswersOpen (svc : ServiceName) (x : AppState × ℕ) (i : Env × Event) : Prop :=
  i.2.isExternal = true ∧ (i.2.answers svc = true → 0 < x.2)

instance (svc : ServiceName) (x : AppState × ℕ) (i : Env × Event) :
    Decidable (AnswersOpen svc x i) :=
  inferInstanceAs (Decidable (_ ∧ (_ → _)))

end AppState

/-! ## One step -/

/-- Intents taken back lead to one query; other events lead to no more than they answer. -/
theorem ServiceStep.queries {s : TunnelState} {svc : ServiceName} {e : Event} {v : ServiceView}
    {n : ℕ} (h : ServiceStep s svc e v n) (he : e.isExternal = true) :
    ((s.serviceView svc).pending.getD []).length < (v.pending.getD []).length ∧
        e.answers svc = false ∧ n = 1 ∨
      (v.pending.getD []).length ≤ ((s.serviceView svc).pending.getD []).length ∧
        n ≤ if e.answers svc = true then 1 else 0 := by
  have hdemand : (s.serviceView svc).demand ≤ 1 := by
    unfold ServiceView.demand
    split <;> omega
  cases h with
  | idle => exact Or.inr ⟨le_rfl, Nat.zero_le _⟩
  | started => cases he
  | failed => exact Or.inr ⟨le_rfl, by simpa [Event.answers] using hdemand⟩
  | unneeded => exact Or.inr ⟨le_rfl, Nat.zero_le _⟩
  | unresolved => exact Or.inr ⟨le_rfl, by simp [Event.answers]⟩
  | resolved => exact Or.inr ⟨Nat.zero_le _, Nat.zero_le _⟩
  | @rerouted q reason binds candidates =>
    unfold ServiceView.refill
    by_cases hbinds : binds = []
    · rw [if_pos hbinds, if_pos hbinds]
      exact Or.inr ⟨le_rfl, Nat.zero_le _⟩
    · have hpos : 0 < binds.length := List.length_pos_iff.mpr hbinds
      rw [if_neg hbinds, if_neg hbinds, Option.getD_some, List.length_append]
      exact Or.inl ⟨by omega, rfl, rfl⟩

namespace AppState

variable {a : AppState} {svc : ServiceName} {i : Env × Event}

/-- The provider queries of a step: those on becoming ready, and those of the tunnel machine. -/
theorem queriesFor_transition (env : Env) (a : AppState) (svc : ServiceName) (e : Event) :
    queriesFor svc (a.transition env e).2 =
      (if a.EntersReady (env, e) then (a.tunnel.serviceView svc).demand else 0) +
        queriesFor svc (a.tunnel.transition env e).2 := by
  have hpeer : queriesFor svc (a.peer.transition env e).2 = 0 := by
    refine queriesFor_eq_zero fun c hc => ?_
    have hown := PeerState.fromPeer_of_mem_transition hc
    cases c <;> first | rfl | cases hown
  rw [transition_commands, queriesFor_append, queriesFor_append, hpeer, Nat.zero_add]
  congr 1
  split
  · exact TunnelState.queriesFor_initiateLookups env a.tunnel svc
  · rfl

/-- A step that asks anew opens one query and answers none; any other step opens no more
queries than it answers. -/
theorem queriesFor_of_external (hi : i.2.isExternal = true) :
    a.AsksAnew svc i ∧ i.2.answers svc = false ∧ queriesFor svc (a.transition i.1 i.2).2 = 1 ∨
      ¬a.AsksAnew svc i ∧
        queriesFor svc (a.transition i.1 i.2).2 ≤ if i.2.answers svc = true then 1 else 0 := by
  have hlength : a.TakesIntentsBack svc i ↔
      ((a.tunnel.serviceView svc).pending.getD []).length <
        (((a.tunnel.transition i.1 i.2).1.serviceView svc).pending.getD []).length := by
    unfold TakesIntentsBack
    rw [transition_tunnel]
    rfl
  unfold AsksAnew
  rw [hlength, queriesFor_transition]
  by_cases henters : a.EntersReady i
  · obtain ⟨hidle, hanswers⟩ := (a.peer.transition_phase i.1 i.2).enters_ready henters.1
      henters.2 a.tunnel
    have hzero : queriesFor svc (a.tunnel.transition i.1 i.2).2 = 0 := by
      rw [hidle]
      rfl
    have hkept : (a.tunnel.transition i.1 i.2).1 = a.tunnel := by rw [hidle]
    have hdemand : (a.tunnel.serviceView svc).demand =
        if a.tunnel.pendingByService.contains svc = true then 1 else 0 := rfl
    rw [if_pos henters, hzero, hkept, hdemand, hanswers svc, Nat.add_zero]
    by_cases hpending : a.tunnel.pendingByService.contains svc = true
    · exact Or.inl ⟨Or.inl ⟨henters, hpending⟩, rfl, if_pos hpending⟩
    · refine Or.inr ⟨?_, (if_neg hpending).le⟩
      rintro (⟨_, h⟩ | h)
      · exact hpending h
      · exact lt_irrefl _ h
  · rw [if_neg henters, Nat.zero_add]
    rcases (a.tunnel.transition_refinesAtService i.1 svc i.2).queries hi with
      ⟨hlonger, hanswers, hone⟩ | ⟨hnot, hfew⟩
    · exact Or.inl ⟨Or.inr hlonger, hanswers, hone⟩
    · refine Or.inr ⟨?_, hfew⟩
      rintro (⟨h, _⟩ | h)
      · exact henters h
      · omega

/-! ## Runs -/

/-- **Open queries, exactly.** In a run in which every query is answered at most once, no service
ever has more than one open provider query if and only if no step asks anew for its providers
while a query for it is open. A step that does not ask anew opens no more queries than it
answers. -/
theorem one_open_query_iff (peers : Finset PeerId) (calls : List ConfigCall) (svc : ServiceName)
    {is : List (Env × Event)}
    (his : (queried svc).Guarded (AnswersOpen svc) (configured peers calls, 0) is) :
    ((queried svc).Always (fun x => x.2 ≤ 1) (configured peers calls, 0) is ↔
      (queried svc).Guarded (fun x i => ¬(x.1.AsksAnew svc i ∧ 0 < x.2))
        (configured peers calls, 0) is) ∧
    ∀ (a : AppState) (i : Env × Event), i.2.isExternal = true → ¬a.AsksAnew svc i →
      queriesFor svc (a.transition i.1 i.2).2 ≤ if i.2.answers svc = true then 1 else 0 := by
  refine ⟨?_, fun a i hi hnot => ?_⟩
  swap
  · rcases queriesFor_of_external hi with ⟨hasks, -⟩ | ⟨-, hfew⟩
    · exact absurd hasks hnot
    · exact hfew
  refine his.always_iff (J := fun _ => True) trivial (Nat.zero_le 1) (fun _ _ _ _ => trivial)
    fun x i _ hx hi => ?_
  change countOpen svc x.2 x.1 i (x.1.transition i.1 i.2).2 ≤ 1 ↔ _
  unfold countOpen
  have hstep : x.1.AsksAnew svc i ∧ i.2.answers svc = false ∧
        queriesFor svc (x.1.transition i.1 i.2).2 = 1 ∨
      ¬x.1.AsksAnew svc i ∧
        queriesFor svc (x.1.transition i.1 i.2).2 ≤ if i.2.answers svc = true then 1 else 0 :=
    queriesFor_of_external hi.1
  rcases hstep with ⟨hasks, hanswers, hone⟩ | ⟨hnot, hfew⟩
  · rw [hanswers, hone]
    simp only [hasks, true_and]
    simp
  · refine iff_of_true ?_ fun h => hnot h.1
    by_cases hanswers : i.2.answers svc = true
    · rw [if_pos hanswers] at hfew ⊢
      omega
    · rw [if_neg hanswers] at hfew ⊢
      omega

/-- A node that becomes ready, asks for a service, and is told that there is none. -/
def answeredOnce : List (Env × Event) :=
  [.noBootstrapPeers, .dhtServiceFailed webIntent.1 "no providers found"].map (.sorted, ·)

/-- The repeated query is the only one that is open. -/
theorem one_open_query_iff_answered :
    (queried webIntent.1).Always (fun x => x.2 ≤ 1)
      (configured ∅ [.addServiceTunnel webIntent.1 webIntent.2], 0) answeredOnce :=
  (one_open_query_iff ∅ [.addServiceTunnel webIntent.1 webIntent.2] webIntent.1 (by decide)).1.mpr
    (by decide)

/-- A node that becomes ready, loses its only peer, and becomes ready again. -/
def readyAgain : List (Env × Event) :=
  [.bootstrapConnected ⟨1⟩ ⟨[.ip4 ⟨203, 0, 113, 1⟩, .udp 4001, .quicV1]⟩,
    .externalAddrConfirmed ⟨[.ip4 ⟨203, 0, 113, 2⟩, .udp 4001, .quicV1]⟩, .kademliaBootstrapOk,
    .connectionLost ⟨1⟩ 0, .kademliaBootstrapOk].map (.sorted, ·)

/-- It asks for the same service twice without an answer in between. -/
theorem two_open_queries_ready_again :
    (queried webIntent.1).Guarded (AnswersOpen webIntent.1)
        (configured {⟨1⟩} [.addServiceTunnel webIntent.1 webIntent.2], 0) readyAgain ∧
      ((queried webIntent.1).after
        (configured {⟨1⟩} [.addServiceTunnel webIntent.1 webIntent.2], 0) readyAgain).2 = 2 := by
  decide

end AppState

end Punchgate
