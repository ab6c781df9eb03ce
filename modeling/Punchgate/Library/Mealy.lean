import Mathlib.Algebra.BigOperators.Group.List.Basic
import Mathlib.Data.List.Induction
import Mathlib.Tactic.Abel

/-!
# Runs of Mealy machines

A Mealy machine consumes one input at a time and answers each with a finite list
of outputs. This file collects the rules by which a fact about one step becomes a
fact about every run: invariants, conditions met by every step, properties of
everything that was emitted, conserved quantities, and ghost values that record
the history of a run beside its state.
-/

namespace Mealy

/-- An entry of a history is its last one, or an entry of what came before. -/
theorem concat_eq_append_cons {α : Type*} {xs before after : List α} {x y : α} :
    xs ++ [x] = before ++ y :: after ↔
      after = [] ∧ before = xs ∧ y = x ∨ ∃ rest, after = rest ++ [x] ∧ xs = before ++ y :: rest := by
  constructor
  · intro heq
    rcases List.eq_nil_or_concat after with rfl | ⟨rest, last, rfl⟩
    · obtain ⟨rfl, hlast⟩ := List.append_inj' heq rfl
      exact Or.inl ⟨rfl, rfl, (List.singleton_inj.mp hlast).symm⟩
    · rw [List.concat_eq_append, ← List.cons_append, ← List.append_assoc] at heq
      obtain ⟨rfl, hlast⟩ := List.append_inj' heq rfl
      rw [List.concat_eq_append, List.singleton_inj.mp hlast]
      exact Or.inr ⟨rest, rfl, rfl⟩
  · rintro (⟨rfl, rfl, rfl⟩ | ⟨rest, rfl, rfl⟩)
    · rfl
    · simp

/-- A machine that answers every input with a new state and a list of outputs. -/
structure Machine (σ ι ο : Type*) where
  /-- The reaction to one input. -/
  step : σ → ι → σ × List ο

namespace Machine

variable {σ ι ο γ M : Type*} (m : Machine σ ι ο)

/-- The state after a sequence of inputs. -/
def after (s : σ) : List ι → σ
  | [] => s
  | i :: is => after (m.step s i).1 is

/-- Everything emitted along a sequence of inputs, in order. -/
def outputs (s : σ) : List ι → List ο
  | [] => []
  | i :: is => (m.step s i).2 ++ outputs (m.step s i).1 is

/-- Every step of the run meets a condition on the state before it and its input. -/
def Guarded (guard : σ → ι → Prop) (s : σ) : List ι → Prop
  | [] => True
  | i :: is => guard s i ∧ Guarded guard (m.step s i).1 is

/-- A property holds in every state of the run, the first and the last included. -/
def Always (P : σ → Prop) (s : σ) : List ι → Prop
  | [] => P s
  | i :: is => P s ∧ Always P (m.step s i).1 is

instance instDecidableGuarded {guard : σ → ι → Prop} [∀ s i, Decidable (guard s i)] :
    ∀ (s : σ) (is : List ι), Decidable (m.Guarded guard s is)
  | _, [] => isTrue trivial
  | s, i :: is => @instDecidableAnd _ _ _ (instDecidableGuarded (m.step s i).1 is)

@[simp] theorem after_nil (s : σ) : m.after s [] = s := rfl

@[simp] theorem after_cons (s : σ) (i : ι) (is : List ι) :
    m.after s (i :: is) = m.after (m.step s i).1 is := rfl

theorem after_append (s : σ) (is js : List ι) :
    m.after s (is ++ js) = m.after (m.after s is) js := by
  induction is generalizing s with
  | nil => rfl
  | cons i is ih => exact ih _

theorem after_concat (s : σ) (is : List ι) (i : ι) :
    m.after s (is ++ [i]) = (m.step (m.after s is) i).1 := m.after_append s is [i]

theorem outputs_append (s : σ) (is js : List ι) :
    m.outputs s (is ++ js) = m.outputs s is ++ m.outputs (m.after s is) js := by
  induction is generalizing s with
  | nil => rfl
  | cons i is ih => simp [outputs, ih]

theorem outputs_concat (s : σ) (is : List ι) (i : ι) :
    m.outputs s (is ++ [i]) = m.outputs s is ++ (m.step (m.after s is) i).2 := by
  simp [outputs_append, outputs]

/-- What the steps of a run count for together. -/
def total (m : Machine σ ι ο) (f : σ → ι → ℕ) (s : σ) : List ι → ℕ
  | [] => 0
  | i :: is => f s i + total m f (m.step s i).1 is

variable {m} {guard : σ → ι → Prop} {P : σ → Prop} {s : σ} {is js : List ι} {i : ι}

theorem guarded_append :
    m.Guarded guard s (is ++ js) ↔ m.Guarded guard s is ∧ m.Guarded guard (m.after s is) js := by
  induction is generalizing s with
  | nil => simp [Guarded]
  | cons i is ih => simp [Guarded, ih, and_assoc]

/-- A condition implied by another one is met wherever the other one is. -/
theorem Guarded.mono {guard' : σ → ι → Prop} (h : m.Guarded guard s is)
    (himp : ∀ s i, guard s i → guard' s i) : m.Guarded guard' s is := by
  induction is generalizing s with
  | nil => trivial
  | cons i is ih => exact ⟨himp _ _ h.1, ih h.2⟩

/-- A condition that follows from another one in states with an invariant is met wherever the other
one is. -/
theorem Guarded.mono_of_invariant {J : σ → Prop} {guard' : σ → ι → Prop}
    (h : m.Guarded guard s is) (hJ : J s) (hstep : ∀ s i, J s → J (m.step s i).1)
    (himp : ∀ s i, J s → guard s i → guard' s i) : m.Guarded guard' s is := by
  induction is generalizing s with
  | nil => trivial
  | cons i is ih => exact ⟨himp _ _ hJ h.1, ih h.2 (hstep _ _ hJ)⟩

/-- Two conditions that are met are met together. -/
theorem Guarded.and {guard' : σ → ι → Prop} (h : m.Guarded guard s is)
    (h' : m.Guarded guard' s is) : m.Guarded (fun s i => guard s i ∧ guard' s i) s is := by
  induction is generalizing s with
  | nil => trivial
  | cons i is ih => exact ⟨⟨h.1, h'.1⟩, ih h.2 h'.2⟩

/-- A condition on the inputs alone is met by every run of such inputs. -/
theorem Guarded.of_forall_mem (h : ∀ i ∈ is, ∀ s, guard s i) : m.Guarded guard s is := by
  induction is generalizing s with
  | nil => trivial
  | cons i is ih =>
    exact ⟨h i (List.mem_cons_self ..) s, ih fun j hj => h j (List.mem_cons_of_mem _ hj)⟩

/-- **Invariant rule.** What holds at the start and is preserved by every step
that meets the condition holds after every run that meets it. -/
theorem Guarded.invariant (h : m.Guarded guard s is) (hinit : P s)
    (hstep : ∀ s i, P s → guard s i → P (m.step s i).1) : P (m.after s is) := by
  induction is generalizing s with
  | nil => exact hinit
  | cons i is ih => exact ih h.2 (hstep _ _ hinit h.1)

/-- The invariant rule for runs without a condition on their steps. -/
theorem invariant (is : List ι) (hinit : P s) (hstep : ∀ s i, P s → P (m.step s i).1) :
    P (m.after s is) := by
  induction is generalizing s with
  | nil => exact hinit
  | cons i is ih => exact ih (hstep _ _ hinit)

/-- What holds in every state of a run holds in its first one. -/
theorem Always.head (h : m.Always P s is) : P s := by
  cases is with
  | nil => exact h
  | cons i is => exact h.1

/-- What holds in every state of a run holds after every prefix of its inputs. -/
theorem always_iff_forall_prefixes :
    m.Always P s is ↔ ∀ js, js <+: is → P (m.after s js) := by
  induction is generalizing s with
  | nil => simp [Always]
  | cons i is ih =>
    constructor
    · rintro ⟨hs, hrest⟩ js hjs
      cases js with
      | nil => exact hs
      | cons j js =>
        obtain ⟨rfl, hprefix⟩ := List.cons_prefix_cons.mp hjs
        exact ih.mp hrest js hprefix
    · intro h
      refine ⟨h [] (List.nil_prefix), ih.mpr fun js hjs => ?_⟩
      exact h (i :: js) (List.cons_prefix_cons.mpr ⟨rfl, hjs⟩)

/-- A weaker property holds in every state as well. -/
theorem Always.mono {Q : σ → Prop} (h : m.Always P s is) (himp : ∀ s, P s → Q s) :
    m.Always Q s is :=
  always_iff_forall_prefixes.mpr fun js hjs => himp _ (always_iff_forall_prefixes.mp h js hjs)

/-- An invariant holds in every state of a run that meets its condition. -/
theorem Guarded.always (h : m.Guarded guard s is) (hinit : P s)
    (hstep : ∀ s i, P s → guard s i → P (m.step s i).1) : m.Always P s is := by
  induction is generalizing s with
  | nil => exact hinit
  | cons i is ih => exact ⟨hinit, ih h.2 (hstep _ _ hinit h.1)⟩

/-- **Exact conditions.** If, next to an invariant, a property survives a step exactly
when the step meets a condition, then it holds in every state of a run exactly when every
step of the run meets the condition. -/
theorem Guarded.always_iff {J : σ → Prop} {ok : σ → ι → Prop} (h : m.Guarded guard s is)
    (hJ : J s) (hP : P s) (hstep : ∀ s i, J s → guard s i → J (m.step s i).1)
    (hexact : ∀ s i, J s → P s → guard s i → (P (m.step s i).1 ↔ ok s i)) :
    m.Always P s is ↔ m.Guarded ok s is := by
  induction is generalizing s with
  | nil => exact iff_of_true hP trivial
  | cons i is ih =>
    constructor
    · rintro ⟨_, hrest⟩
      have hok := (hexact s i hJ hP h.1).mp hrest.head
      exact ⟨hok, (ih h.2 (hstep s i hJ h.1) hrest.head).mp hrest⟩
    · rintro ⟨hok, hrest⟩
      have hP' := (hexact s i hJ hP h.1).mpr hok
      exact ⟨hP, (ih h.2 (hstep s i hJ h.1) hP').mpr hrest⟩

/-- Exact conditions for runs that are not restricted otherwise. -/
theorem always_iff {ok : σ → ι → Prop} (is : List ι) (hP : P s)
    (hexact : ∀ s i, P s → (P (m.step s i).1 ↔ ok s i)) :
    m.Always P s is ↔ m.Guarded ok s is := by
  have hfree : m.Guarded (fun _ _ => True) s is := .of_forall_mem fun _ _ _ => trivial
  exact hfree.always_iff (J := fun _ => True) trivial hP (fun _ _ _ _ => trivial)
    fun s i _ hs _ => hexact s i hs

/-- **Equivalent conditions.** Two conditions that are equivalent for steps from states with an
invariant are met by the same runs. -/
theorem Guarded.congr {J : σ → Prop} {ok ok' : σ → ι → Prop} (h : m.Guarded guard s is)
    (hJ : J s) (hstep : ∀ s i, J s → guard s i → J (m.step s i).1)
    (hiff : ∀ s i, J s → guard s i → (ok s i ↔ ok' s i)) :
    m.Guarded ok s is ↔ m.Guarded ok' s is := by
  induction is generalizing s with
  | nil => exact Iff.rfl
  | cons i is ih => exact and_congr (hiff s i hJ h.1) (ih h.2 (hstep s i hJ h.1))

/-- What every step from an invariant state guarantees of its outputs is
guaranteed of everything a run emits. -/
theorem Guarded.forall_outputs {Q : ο → Prop} (h : m.Guarded guard s is) (hinit : P s)
    (hstep : ∀ s i, P s → guard s i → P (m.step s i).1)
    (hout : ∀ s i, P s → guard s i → ∀ o ∈ (m.step s i).2, Q o) :
    ∀ o ∈ m.outputs s is, Q o := by
  induction is generalizing s with
  | nil => simp [outputs]
  | cons i is ih =>
    intro o ho
    rcases List.mem_append.mp ho with ho | ho
    · exact hout _ _ hinit h.1 o ho
    · exact ih h.2 (hstep _ _ hinit h.1) o ho

/-- The same, whatever the inputs are. -/
theorem forall_outputs {Q : ο → Prop} (is : List ι) (hinit : P s)
    (hstep : ∀ s i, P s → P (m.step s i).1 ∧ ∀ o ∈ (m.step s i).2, Q o) :
    ∀ o ∈ m.outputs s is, Q o := by
  have hfree : m.Guarded (fun _ _ => True) s is := .of_forall_mem fun _ _ _ => trivial
  exact hfree.forall_outputs hinit (fun s i hs _ => (hstep s i hs).1) fun s i hs _ =>
    (hstep s i hs).2

/-- **Conservation rule.** If every step moves some amount of a measure from the
state into its outputs, then state and outputs together keep the initial amount. -/
theorem conserved [AddCommMonoid M] (μ : σ → M) (ν : ο → M)
    (hstep : ∀ s i, μ (m.step s i).1 + ((m.step s i).2.map ν).sum = μ s) (s : σ) (is : List ι) :
    μ (m.after s is) + ((m.outputs s is).map ν).sum = μ s := by
  induction is generalizing s with
  | nil => simp [outputs]
  | cons i is ih =>
    rw [after_cons, outputs, List.map_append, List.sum_append, ← hstep s i, ← ih (m.step s i).1]
    abel

/-- A run that does not avoid a kind of step has such a step somewhere. -/
theorem exists_of_not_guarded {K : σ → ι → Prop} (h : ¬m.Guarded (fun s i => ¬K s i) s is) :
    ∃ js i ks, is = js ++ i :: ks ∧ K (m.after s js) i := by
  induction is generalizing s with
  | nil => exact absurd trivial h
  | cons i is ih =>
    by_cases hi : K s i
    · exact ⟨[], i, is, rfl, hi⟩
    · obtain ⟨js, j, ks, rfl, hj⟩ := ih fun hrest => h ⟨hi, hrest⟩
      exact ⟨i :: js, j, ks, rfl, hj⟩

/-! ## Accounts -/

/-- Steps that all count for nothing count for nothing together. -/
theorem Guarded.total_eq_zero {f : σ → ι → ℕ} (h : m.Guarded (fun s i => f s i = 0) s is) :
    m.total f s is = 0 := by
  induction is generalizing s with
  | nil => rfl
  | cons i is ih => rw [total, h.1, ih h.2]

theorem total_append (f : σ → ι → ℕ) :
    m.total f s (is ++ js) = m.total f s is + m.total f (m.after s is) js := by
  induction is generalizing s with
  | nil => exact (Nat.zero_add _).symm
  | cons i is ih => rw [List.cons_append, total, ih, ← Nat.add_assoc, total, after_cons]

/-- **Credit rule.** If each step pays what it spends from the credit before it and from what it
earns, and hands on the rest, then so does every run. -/
theorem Guarded.total_le {spent earned : σ → ι → ℕ} (h : m.Guarded guard s is) (credit : σ → ℕ)
    (hstep : ∀ s i, guard s i → spent s i + credit (m.step s i).1 ≤ credit s + earned s i) :
    m.total spent s is + credit (m.after s is) ≤ credit s + m.total earned s is := by
  induction is generalizing s with
  | nil => simp [total]
  | cons i is ih =>
    have hhead := hstep s i h.1
    have htail := ih h.2
    simp only [total, after_cons]
    omega

/-! ## The last of two kinds of steps -/

/-- Some step of the run does one thing, and no later one does another. -/
def Since (m : Machine σ ι ο) (sets clears : σ → ι → Prop) (s : σ) (is : List ι) : Prop :=
  ∃ js i ks, is = js ++ i :: ks ∧ sets (m.after s js) i ∧
    m.Guarded (fun s i => ¬clears s i) (m.step (m.after s js) i).1 ks

variable {sets clears : σ → ι → Prop}

theorem not_since_nil : ¬m.Since sets clears s [] := by
  rintro ⟨js, i, ks, h, _⟩
  simp at h

/-- One more step does the one thing, or it leaves a run in which it was done last. -/
theorem since_concat : m.Since sets clears s (is ++ [i]) ↔
    sets (m.after s is) i ∨ m.Since sets clears s is ∧ ¬clears (m.after s is) i := by
  constructor
  · rintro ⟨js, j, ks, heq, hset, hkept⟩
    rcases concat_eq_append_cons.mp heq with ⟨rfl, rfl, rfl⟩ | ⟨ks, rfl, rfl⟩
    · exact Or.inl hset
    · obtain ⟨hkept, hlast⟩ := guarded_append.mp hkept
      rw [after_append]
      exact Or.inr ⟨⟨js, j, ks, rfl, hset, hkept⟩, hlast.1⟩
  · rintro (hset | ⟨⟨js, j, ks, rfl, hset, hkept⟩, hclear⟩)
    · exact ⟨is, i, [], rfl, hset, trivial⟩
    · rw [after_append] at hclear
      exact ⟨js, j, ks ++ [i], by simp, hset, guarded_append.mpr ⟨hkept, hclear, trivial⟩⟩

/-- **Flag rule.** A flag that is not set at the start, and that each step sets, clears or leaves
alone, is set after a run exactly if it was set since it was last cleared. -/
theorem after_iff_since (is : List ι) (hinit : ¬P s)
    (hstep : ∀ s i, P (m.step s i).1 ↔ sets s i ∨ P s ∧ ¬clears s i) :
    P (m.after s is) ↔ m.Since sets clears s is := by
  induction is using List.reverseRecOn with
  | nil => exact iff_of_false hinit not_since_nil
  | append_singleton is i ih => rw [after_concat, hstep, since_concat, ih]

/-! ## Ghost values -/

/-- The machine beside which a ghost value is kept up to date. The ghost sees the
state before each step, the input and the outputs, and never influences the step. -/
def withGhost (m : Machine σ ι ο) (update : γ → σ → ι → List ο → γ) : Machine (σ × γ) ι ο where
  step s i := (((m.step s.1 i).1, update s.2 s.1 i (m.step s.1 i).2), (m.step s.1 i).2)

variable {update : γ → σ → ι → List ο → γ} {g : γ}

@[simp] theorem withGhost_step (s : σ × γ) (i : ι) :
    (m.withGhost update).step s i =
      (((m.step s.1 i).1, update s.2 s.1 i (m.step s.1 i).2), (m.step s.1 i).2) := rfl

/-- Forgetting the ghost gives back the run of the machine itself. -/
@[simp] theorem after_withGhost_fst (s : σ × γ) (is : List ι) :
    ((m.withGhost update).after s is).1 = m.after s.1 is := by
  induction is generalizing s with
  | nil => rfl
  | cons i is ih => exact ih _

/-- What holds in every state of a run beside a ghost holds in every state of the run itself. -/
theorem Always.of_withGhost {s : σ × γ} (h : (m.withGhost update).Always (fun x => P x.1) s is) :
    m.Always P s.1 is := by
  rw [always_iff_forall_prefixes] at h ⊢
  intro js hjs
  have hfst : ((m.withGhost update).after s js).1 = m.after s.1 js := after_withGhost_fst s js
  rw [← hfst]
  exact h js hjs

end Machine

end Mealy
