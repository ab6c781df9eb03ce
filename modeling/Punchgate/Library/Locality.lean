import Mathlib.Tactic.TypeStar

/-!
# Local operations

A state often consists of a slice for each key and of a common part. An operation is local to a key
if it reads and writes the slice of that key only, apart from reading the common part. Operations
that are local to different keys do not notice each other.
-/

/-- A state that consists of a slice for each key and of a common part. -/
structure Slicing (σ κ β ρ : Type*) where
  /-- The slice of a key. -/
  slice : σ → κ → β
  /-- The common part. -/
  common : σ → ρ
  /-- There is nothing else in a state. -/
  ext : ∀ s t, (∀ k, slice s k = slice t k) → common s = common t → s = t

namespace Slicing

variable {σ κ β ρ ο ο' : Type*} (S : Slicing σ κ β ρ)

/-- An operation that reads the slice of one key and the common part, and writes the slice. -/
structure Local (k : κ) (f : σ → σ × ο) : Prop where
  /-- The common part stays. -/
  common : ∀ s, S.common (f s).1 = S.common s
  /-- The slices of other keys stay. -/
  other : ∀ s l, l ≠ k → S.slice (f s).1 l = S.slice s l
  /-- The new slice and the output depend on the slice and the common part. -/
  own : ∀ s t, S.slice s k = S.slice t k → S.common s = S.common t →
    S.slice (f s).1 k = S.slice (f t).1 k ∧ (f s).2 = (f t).2

variable {S} {k l : κ} {f : σ → σ × ο} {g : σ → σ × ο'}

/-- Nothing happens. -/
theorem Local.skip (o : ο) : S.Local k fun s => (s, o) :=
  ⟨fun _ => rfl, fun _ _ _ => rfl, fun _ _ h _ => ⟨h, rfl⟩⟩

/-- What an operation answers, and what it makes of the slice of its key, is not changed by an
operation that is local to another key. -/
theorem Local.unnoticed (hf : S.Local k f) (hg : S.Local l g) (hne : k ≠ l) (s : σ) :
    S.slice (f (g s).1).1 k = S.slice (f s).1 k ∧ (f (g s).1).2 = (f s).2 :=
  hf.own _ _ (hg.other s k hne) (hg.common s)

/-- **Local operations commute.** Operations that are local to different keys lead to the same state
in either order, with the same outputs. -/
theorem Local.commute (hf : S.Local k f) (hg : S.Local l g) (hne : k ≠ l) (s : σ) :
    (g (f s).1).1 = (f (g s).1).1 ∧ (g (f s).1).2 = (g s).2 ∧ (f (g s).1).2 = (f s).2 := by
  obtain ⟨hslice, houtput⟩ := hf.unnoticed hg hne s
  obtain ⟨hslice', houtput'⟩ := hg.unnoticed hf hne.symm s
  refine ⟨S.ext _ _ (fun m => ?_) ?_, houtput', houtput⟩
  · by_cases hk : m = k
    · subst hk
      rw [hg.other _ m hne, hslice]
    · by_cases hl : m = l
      · subst hl
        rw [hslice', hf.other _ m hk]
      · rw [hg.other _ m hl, hf.other _ m hk, hf.other _ m hk, hg.other _ m hl]
  · rw [hg.common, hf.common, hf.common, hg.common]

end Slicing
