import Mathlib.Data.List.Induction

/-!
# Runs of partial machines

Not every action is possible in every state. A run is a sequence of actions each of which is
possible when its turn comes.
-/

/-- A machine that refuses some actions. -/
structure Partial (σ α : Type*) where
  /-- The state after an action, if it is possible. -/
  step : σ → α → Option σ

namespace Partial

variable {σ α : Type*} (m : Partial σ α) {s t : σ} {as : List α} {a : α}

/-- The state after a sequence of actions, if all of them are possible. -/
def run (s : σ) : List α → Option σ
  | [] => some s
  | a :: as => (m.step s a).bind fun t => run t as

/-- What happens at the end of a run comes last. -/
theorem run_append (s : σ) (as bs : List α) :
    m.run s (as ++ bs) = (m.run s as).bind fun t => m.run t bs := by
  induction as generalizing s with
  | nil => rfl
  | cons a as ih =>
    rw [List.cons_append, run, run]
    cases m.step s a with
    | none => rfl
    | some t => exact ih t

/-- A run with one more action. -/
theorem run_concat_eq_some_iff :
    m.run s (as ++ [a]) = some t ↔ ∃ u, m.run s as = some u ∧ m.step u a = some t := by
  rw [run_append, Option.bind_eq_some_iff]
  simp [run]

/-- **Run rule.** What holds of a state and the actions so far, holds after every run if every
possible step preserves it. -/
theorem run_induction {P : List α → σ → Prop} (hstart : P [] s)
    (hstep : ∀ as t a u, m.run s as = some t → P as t → m.step t a = some u → P (as ++ [a]) u)
    (h : m.run s as = some t) : P as t := by
  induction as using List.reverseRecOn generalizing t with
  | nil => exact Option.some.inj h ▸ hstart
  | append_singleton as a ih =>
    obtain ⟨u, hrun, hlast⟩ := m.run_concat_eq_some_iff.mp h
    exact hstep as u a t hrun (ih hrun) hlast

/-- **Invariant rule.** What every possible step preserves holds after every run. -/
theorem invariant {P : σ → Prop} (hstart : P s)
    (hstep : ∀ t a u, P t → m.step t a = some u → P u) (h : m.run s as = some t) : P t :=
  m.run_induction (P := fun _ t => P t) hstart (fun _ t a u _ => hstep t a u) h

end Partial
