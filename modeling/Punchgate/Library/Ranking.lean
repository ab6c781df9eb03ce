import Mathlib.Data.List.Infix
import Mathlib.Data.List.Sort

/-!
# Rankings with a cutoff

A ranking lists the elements of a collection that qualify, best first, and keeps only so many of
them. If fewer elements qualify later on, and those that drop out are the worst ones, then the
later ranking is an initial part of the earlier one.
-/

namespace Ranking

variable {α : Type*}

/-- If whatever precedes a qualified element qualifies, the qualified elements come first. -/
theorem filter_initial {l : List α} {p : α → Bool}
    (h : l.Pairwise fun x y => p y = true → p x = true) : l.filter p <+: l := by
  induction l with
  | nil => exact List.prefix_rfl
  | cons x l ih =>
    obtain ⟨hx, hl⟩ := List.pairwise_cons.mp h
    by_cases hpx : p x = true
    · rw [List.filter_cons_of_pos hpx]
      exact List.cons_prefix_cons.mpr ⟨rfl, ih hl⟩
    · have hnone : l.filter p = [] :=
        List.filter_eq_nil_iff.mpr fun y hy hpy => hpx (hx y hy hpy)
      rw [List.filter_cons_of_neg hpx, hnone]
      exact List.nil_prefix

variable {r : α → α → Prop} [DecidableRel r] [Std.Total r] [IsTrans α r]

/-- A list ranks the `k` best of the elements that qualify: it is ordered, and an element that
qualifies is listed unless `k` others are that come before it. -/
structure Best (r : α → α → Prop) (qualified : α → Prop) (k : ℕ) (ranked : List α) : Prop where
  /-- Better elements come first. -/
  ordered : ranked.Pairwise r
  /-- No element is listed twice. -/
  nodup : ranked.Nodup
  /-- At most `k` elements are listed. -/
  length_le : ranked.length ≤ k
  /-- Every listed element qualifies. -/
  forall_mem : ∀ x ∈ ranked, qualified x
  /-- Elements that are left out come after `k` listed ones. -/
  left_out : ∀ x, qualified x → x ∉ ranked → ranked.length = k ∧ ∀ y ∈ ranked, r y x

/-- The qualified elements of a list, ranked and cut off. -/
theorem best_take {l : List α} (hnodup : l.Nodup) (p : α → Bool) (k : ℕ) :
    Best r (fun x => x ∈ l ∧ p x = true) k (((l.filter p).insertionSort r).take k) := by
  have hsorted := List.pairwise_insertionSort r (l.filter p)
  have hmem (x : α) : x ∈ (l.filter p).insertionSort r ↔ x ∈ l ∧ p x = true := by
    rw [List.mem_insertionSort, List.mem_filter]
  constructor
  case ordered => exact hsorted.sublist (List.take_sublist k _)
  case nodup =>
    have hall := (List.perm_insertionSort r (l.filter p)).nodup_iff.mpr (hnodup.filter p)
    exact hall.sublist (List.take_sublist k _)
  case length_le => exact List.length_take_le k _
  case forall_mem => exact fun x hx => (hmem x).mp (List.mem_of_mem_take hx)
  case left_out =>
    intro x hx hout
    have hdrop : x ∈ ((l.filter p).insertionSort r).drop k := by
      have hx' := (hmem x).mpr hx
      rw [← List.take_append_drop k ((l.filter p).insertionSort r)] at hx'
      exact (List.mem_append.mp hx').resolve_left hout
    refine ⟨?_, fun y hy => ?_⟩
    · have hlong : k < ((l.filter p).insertionSort r).length := by
        by_contra hshort
        rw [List.drop_of_length_le (not_lt.mp hshort)] at hdrop
        cases hdrop
      exact List.length_take_of_le hlong.le
    · rw [← List.take_append_drop k ((l.filter p).insertionSort r)] at hsorted
      exact (List.pairwise_append.mp hsorted).2.2 y hy x hdrop

variable [Std.Antisymm r]

/-- A ranking does not depend on the order in which the elements are listed. -/
theorem insertionSort_eq_of_perm {l l' : List α} (h : l'.Perm l) :
    l'.insertionSort r = l.insertionSort r := by
  have hperm : (l'.insertionSort r).Perm (l.insertionSort r) :=
    (List.perm_insertionSort r l').trans (h.trans (List.perm_insertionSort r l).symm)
  exact hperm.eq_of_pairwise' (List.pairwise_insertionSort r l') (List.pairwise_insertionSort r l)

/-- Ranking the qualified elements is keeping them in the ranking of all. -/
theorem insertionSort_filter (l : List α) (p : α → Bool) :
    (l.filter p).insertionSort r = (l.insertionSort r).filter p := by
  have hperm : ((l.filter p).insertionSort r).Perm ((l.insertionSort r).filter p) :=
    (List.perm_insertionSort r _).trans ((List.perm_insertionSort r l).symm.filter p)
  exact hperm.eq_of_pairwise' (List.pairwise_insertionSort r _)
    ((List.pairwise_insertionSort r l).filter p)

/-- **Rankings shrink from their end.** -/
theorem take_initial {l l' : List α} {p p' : α → Bool} (hperm : l'.Perm l)
    (hsub : ∀ x ∈ l, p' x = true → p x = true)
    (hbest : ∀ x y, r x y → p x = true → p' y = true → p' x = true) (k : ℕ) :
    ((l'.filter p').insertionSort r).take k <+: ((l.filter p).insertionSort r).take k := by
  have hqualified : l.filter p' = (l.filter p).filter p' := by
    rw [List.filter_filter]
    refine List.filter_congr fun x hx => ?_
    cases h : p' x with
    | false => rfl
    | true => rw [hsub x hx h, Bool.and_self]
  rw [insertionSort_eq_of_perm (hperm.filter p'), hqualified, insertionSort_filter]
  refine List.IsPrefix.take (filter_initial ?_) k
  have hsorted := List.pairwise_insertionSort r (l.filter p)
  refine hsorted.imp_of_mem fun {x y} hx _ hxy hy => hbest x y hxy ?_ hy
  exact (List.mem_filter.mp ((List.mem_insertionSort r).mp hx)).2

end Ranking
