import Punchgate.Library.Partial

/-!
# Families of partial machines

A machine may consist of members that come into being while it runs and then act in any order. If an
action that belongs to a member changes that member only, as the member's own machine does, then the
actions of a member are a run of its own machine, whatever the other members do.
-/

namespace Partial

variable {σ α κ μ β : Type*}

/-- What an action is to one member. -/
def actionOf (label : α → Option (ℕ × β)) (i : ℕ) (a : α) : Option β :=
  (label a).bind fun l => if l.1 = i then some l.2 else none

/-- The actions among others that belong to one member. -/
def actionsOf (label : α → Option (ℕ × β)) (i : ℕ) (as : List α) : List β :=
  as.filterMap (actionOf label i)

/-- An element may be replaced by one with the same image. -/
theorem map_set_of_eq {γ δ : Type*} {xs : List γ} {i : ℕ} {x y : γ} {f : γ → δ}
    (hget : xs[i]? = some x) (h : f y = f x) : (xs.set i y).map f = xs.map f := by
  refine List.ext_getElem? fun j => ?_
  rw [List.getElem?_map, List.getElem?_map, List.getElem?_set]
  split
  · rename_i hij
    rw [← hij, hget, if_pos (List.getElem?_eq_some_iff.mp hget).1, Option.map_some, h,
      Option.map_some]
  · rfl

/-- The steps of a machine are steps of members, each with a key that tells its own machine, or they
add at most one member. -/
structure IsFamily (m : Partial σ α) (members : σ → List (κ × μ)) (inner : κ → Partial μ β)
    (start : κ → μ) (label : α → Option (ℕ × β)) : Prop where
  /-- A member acts as its own machine does. -/
  acts : ∀ {s t a i b}, label a = some (i, b) → m.step s a = some t →
    ∃ k x y, (members s)[i]? = some (k, x) ∧ (inner k).step x b = some y ∧
      members t = (members s).set i (k, y)
  /-- Any other step leaves the members as they are, and may add one. -/
  grows : ∀ {s t a}, label a = none → m.step s a = some t →
    members t = members s ∨ ∃ k, members t = members s ++ [(k, start k)]

variable {m : Partial σ α} {members : σ → List (κ × μ)} {inner : κ → Partial μ β} {start : κ → μ}
  {label : α → Option (ℕ × β)} {s t : σ} {as : List α} {i : ℕ} {k : κ} {x : μ}

/-- One more action of a member. -/
theorem actionsOf_concat_self {a : α} {b : β} (h : label a = some (i, b)) :
    actionsOf label i (as ++ [a]) = actionsOf label i as ++ [b] := by
  simp [actionsOf, actionOf, h]

/-- One more action of another member, or of none. -/
theorem actionsOf_concat_other {a : α} (h : ∀ b, label a ≠ some (i, b)) :
    actionsOf label i (as ++ [a]) = actionsOf label i as := by
  have hnone : actionOf label i a = none := by
    rw [actionOf]
    cases hlabel : label a with
    | none => rfl
    | some l =>
      obtain ⟨j, b⟩ := l
      refine if_neg fun hj => h b ?_
      rw [hlabel, ← hj]
  rw [actionsOf, List.filterMap_append, List.filterMap_cons_none hnone, List.filterMap_nil,
    List.append_nil]
  rfl

/-- What a member has come to is what its own actions lead to, and what has not come into being has
not acted. -/
structure Projects (inner : κ → Partial μ β) (start : κ → μ) (label : α → Option (ℕ × β))
    (xs : List (κ × μ)) (as : List α) : Prop where
  /-- A member is where its own machine is. -/
  run : ∀ i k x, xs[i]? = some (k, x) → (inner k).run (start k) (actionsOf label i as) = some x
  /-- There are no actions of others. -/
  unborn : ∀ i, xs.length ≤ i → actionsOf label i as = []

variable {xs : List (κ × μ)} {a : α}

/-- A member acts. -/
theorem Projects.act {b : β} {y : μ} (h : Projects inner start label xs as)
    (hlabel : label a = some (i, b)) (hget : xs[i]? = some (k, x))
    (hstep : (inner k).step x b = some y) :
    Projects inner start label (xs.set i (k, y)) (as ++ [a]) := by
  have hi := (List.getElem?_eq_some_iff.mp hget).1
  have hother (j : ℕ) (hj : j ≠ i) : actionsOf label j (as ++ [a]) = actionsOf label j as := by
    refine actionsOf_concat_other fun b' heq => hj ?_
    rw [hlabel] at heq
    cases heq
    rfl
  constructor
  · intro j k' x' hmem
    by_cases hj : j = i
    · subst hj
      rw [List.getElem?_set_self hi] at hmem
      cases hmem
      rw [actionsOf_concat_self hlabel]
      exact (run_concat_eq_some_iff _).mpr ⟨x, h.run j k x hget, hstep⟩
    · rw [List.getElem?_set_ne (Ne.symm hj)] at hmem
      rw [hother j hj]
      exact h.run j k' x' hmem
  · intro j hj
    rw [List.length_set] at hj
    rw [hother j (by omega)]
    exact h.unborn j hj

/-- Something else happens. -/
theorem Projects.keep (h : Projects inner start label xs as) (hlabel : label a = none) :
    Projects inner start label xs (as ++ [a]) := by
  have hsame (i : ℕ) : actionsOf label i (as ++ [a]) = actionsOf label i as := by
    refine actionsOf_concat_other fun b heq => ?_
    rw [hlabel] at heq
    cases heq
  exact ⟨fun i k x hmem => hsame i ▸ h.run i k x hmem, fun i hi => hsame i ▸ h.unborn i hi⟩

/-- A member comes into being. -/
theorem Projects.grow (h : Projects inner start label xs as) (k : κ) :
    Projects inner start label (xs ++ [(k, start k)]) as := by
  constructor
  · intro i k' x hmem
    rcases Nat.lt_or_ge i xs.length with hlt | hge
    · rw [List.getElem?_append_left hlt] at hmem
      exact h.run i k' x hmem
    · -- the member that has just come into being
      rw [h.unborn i hge]
      rw [List.getElem?_append_right hge] at hmem
      obtain ⟨hlen, hget⟩ := List.getElem?_eq_some_iff.mp hmem
      rw [List.length_singleton] at hlen
      rw [List.getElem_singleton] at hget
      cases hget
      rfl
  · intro i hi
    rw [List.length_append, List.length_singleton] at hi
    exact h.unborn i (by omega)

/-- **Projection.** Every run of a family is a run of each member. -/
theorem IsFamily.projects (h : m.IsFamily members inner start label) (hstart : members s = [])
    (hrun : m.run s as = some t) : Projects inner start label (members t) as := by
  refine m.run_induction (P := fun as t => Projects inner start label (members t) as) ?_ ?_ hrun
  · rw [hstart]
    exact ⟨fun i k x hmem => (by cases hmem), fun _ _ => rfl⟩
  · rintro as u a v - hold hstep
    cases hlabel : label a with
    | some l =>
      obtain ⟨k, x, y, hget, hinner, hset⟩ := h.acts hlabel hstep
      rw [hset]
      exact hold.act hlabel hget hinner
    | none =>
      rcases h.grows hlabel hstep with heq | ⟨k, heq⟩
      · rw [heq]
        exact hold.keep hlabel
      · rw [heq]
        exact (hold.keep hlabel).grow k

/-- Each member is a run of its own machine. -/
theorem IsFamily.member_run (h : m.IsFamily members inner start label) (hstart : members s = [])
    (hrun : m.run s as = some t) (hmem : (members t)[i]? = some (k, x)) :
    (inner k).run (start k) (actionsOf label i as) = some x :=
  (h.projects hstart hrun).run i k x hmem

end Partial
