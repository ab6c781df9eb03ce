import Mathlib.Order.WellFounded

/-!
# What happens on every schedule

A property is inevitable if it holds on the way, whichever of the possible steps are taken. It is if
every step makes some measure smaller and some step is possible until the property holds.
-/

/-- The property holds now, or some step is possible and it is inevitable after every one. -/
inductive Inevitable {σ : Type*} (step : σ → σ → Prop) (P : σ → Prop) : σ → Prop
  | now {s : σ} (h : P s) : Inevitable step P s
  | later {s : σ} (hlive : ∃ t, step s t) (h : ∀ t, step s t → Inevitable step P t) :
    Inevitable step P s

namespace Inevitable

variable {σ : Type*} {step : σ → σ → Prop} {P Q I : σ → Prop} {s : σ}

/-- **Progress rule.** Steps keep an invariant and make a measure smaller, and one is possible until
the property holds. -/
theorem of_measure {μ : Type*} [LT μ] [WellFoundedLT μ] (measure : σ → μ) (hI : I s)
    (hkeep : ∀ s t, I s → step s t → I t) (hless : ∀ s t, I s → step s t → measure t < measure s)
    (hlive : ∀ s, I s → ¬P s → ∃ t, step s t) : Inevitable step P s := by
  induction hm : measure s using WellFoundedLT.induction generalizing s with
  | ind m ih =>
    by_cases hP : P s
    · exact .now hP
    · refine .later (hlive s hI hP) fun t ht => ?_
      exact ih (measure t) (hm ▸ hless s t hI ht) (hkeep s t hI ht) rfl

/-- What follows from an inevitable property in states with an invariant is inevitable. -/
theorem mono (h : Inevitable step P s) (hI : I s) (hkeep : ∀ s t, I s → step s t → I t)
    (himp : ∀ s, I s → P s → Q s) : Inevitable step Q s := by
  induction h with
  | now hP => exact .now (himp _ hI hP)
  | later hlive _ ih => exact .later hlive fun t ht => ih t ht (hkeep _ t hI ht)

end Inevitable
