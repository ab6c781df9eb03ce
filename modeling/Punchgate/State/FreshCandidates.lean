import Punchgate.State.RedialAddrs

/-!
# Fresh candidates

The fresh candidates of a peer rank the entries of its last-seen map. They do not depend on the
order in which the map is walked, and while the map does not change they only run out from the end.
-/

namespace Punchgate

namespace TunnelState

variable {env env' : Env} {s : TunnelState} {p : PeerId} {predicate : Multiaddr → Bool} {limit : ℕ}

/-- An address of a peer was last seen at some time. -/
def SeenAt (s : TunnelState) (p : PeerId) (e : Multiaddr × Instant) : Prop :=
  ∃ lastSeen, s.addressLastSeen.get? p = some lastSeen ∧ lastSeen.get? e.1 = some e.2

/-- The addresses of a map, ranked. -/
theorem best_rankCandidates (env : Env) (lastSeen : FiniteMap Multiaddr Instant)
    (predicate : Multiaddr → Bool) (limit : ℕ) :
    ∃ ranked, rankCandidates env lastSeen predicate limit = ranked.map Prod.fst ∧
      Ranking.Best (candidateBefore env) (fun e => lastSeen.get? e.1 = some e.2 ∧
        predicate e.1 = true ∧ env.now - e.2 ≤ Duration.fromSecs 45) limit ranked := by
  have hkeys : ((lastSeen.entries env.addrOrder).map Prod.fst).Nodup := by
    rw [FiniteMap.map_fst_entries]
    exact env.addrOrder.nodup _
  have hbest := Ranking.best_take (r := candidateBefore env) hkeys.of_map
    (fun e => isFresh env.now e.2 && predicate e.1) limit
  refine ⟨_, rfl, ?_⟩
  convert hbest using 2 with e
  rw [FiniteMap.mem_entries, Bool.and_eq_true, isFresh, decide_eq_true_eq]
  exact and_congr_right fun _ => and_comm

/-- Candidates that are fresh at a time were fresh before. -/
theorem freshCandidates_later (htext : Function.Injective env.addrText)
    (henv : env'.addrText = env.addrText) (hnow : env.now ≤ env'.now) :
    s.freshCandidates env' p predicate limit <+: s.freshCandidates env p predicate limit := by
  unfold freshCandidates
  split
  · exact List.prefix_rfl
  · refine rankCandidates_initial htext henv fun a seenAt _ hfresh => ?_
    have hage : env'.now - seenAt ≤ addressCandidateTtl := of_decide_eq_true hfresh
    exact decide_eq_true ((Nat.sub_le_sub_right hnow seenAt).trans hage)

/-- **Fresh candidates.** The fresh candidates of a peer are the newest ones that satisfy the
predicate and are at most 45 s old, as many as the limit allows, newest first with ties by text.
They do not depend on the order of the map, and at a later time they are an initial part of those
at an earlier one. -/
theorem fresh_candidates_ranked (htext : Function.Injective env.addrText) (s : TunnelState)
    (p : PeerId) (predicate : Multiaddr → Bool) (limit : ℕ) :
    (∃ ranked, s.freshCandidates env p predicate limit = ranked.map Prod.fst ∧
      Ranking.Best (candidateBefore env) (fun e => s.SeenAt p e ∧ predicate e.1 = true ∧
        env.now - e.2 ≤ Duration.fromSecs 45) limit ranked) ∧
    (∀ env' : Env, env'.addrText = env.addrText → env'.now = env.now →
      s.freshCandidates env' p predicate limit = s.freshCandidates env p predicate limit) ∧
    ∀ env' : Env, env'.addrText = env.addrText → env.now ≤ env'.now →
      s.freshCandidates env' p predicate limit <+: s.freshCandidates env p predicate limit := by
  refine ⟨?_, fun env' henv hnow => ?_, fun env' henv hnow => freshCandidates_later htext henv hnow⟩
  · cases hget : s.addressLastSeen.get? p with
    | none =>
      have hempty : s.freshCandidates env p predicate limit = [] := by rw [freshCandidates, hget]
      refine ⟨[], hempty, List.Pairwise.nil, List.nodup_nil, Nat.zero_le limit, fun e he => ?_, ?_⟩
      · cases he
      · rintro e ⟨⟨lastSeen, hsome, _⟩, _⟩
        rw [hget] at hsome
        cases hsome
    | some lastSeen =>
      obtain ⟨ranked, hranked, hbest⟩ := best_rankCandidates env lastSeen predicate limit
      have hfresh : s.freshCandidates env p predicate limit = ranked.map Prod.fst := by
        rw [freshCandidates, hget]
        exact hranked
      refine ⟨ranked, hfresh, ?_⟩
      convert hbest using 2 with e
      simp [SeenAt, hget]
  · have htext' : Function.Injective env'.addrText := henv ▸ htext
    have hlater : s.freshCandidates env' p predicate limit <+:
        s.freshCandidates env p predicate limit := freshCandidates_later htext henv hnow.ge
    exact hlater.eq_of_length_le (freshCandidates_later htext' henv.symm hnow.le).length_le

/-- The candidates of the sample peer a minute later are among those of the time it was
identified at. -/
theorem fresh_candidates_ranked_expired :
    let env : Env := { Env.sorted with addrText := sampleText }
    let s := machine.after (configured [webTunnel]) identifiedAttempt
    s.freshCandidates { env with now := Duration.fromSecs 60 } ⟨1⟩ hasP2pCircuit maxRelayCandidates
      <+: s.freshCandidates env ⟨1⟩ hasP2pCircuit maxRelayCandidates := by
  intro env s
  have htext : Function.Injective env.addrText := sampleText_injective
  have hranked := fresh_candidates_ranked htext s ⟨1⟩ hasP2pCircuit maxRelayCandidates
  exact hranked.2.2 { env with now := Duration.fromSecs 60 } rfl (Nat.zero_le _)

end TunnelState

end Punchgate
