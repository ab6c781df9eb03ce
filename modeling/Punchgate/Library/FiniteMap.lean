import Mathlib.Algebra.BigOperators.Group.Finset.Basic
import Mathlib.Algebra.Order.BigOperators.Group.Finset
import Mathlib.Data.Finset.Dedup
import Mathlib.Data.List.Sort
import Mathlib.Data.Multiset.Basic

/-!
# Finite maps with extensional equality

A finite map is a lookup function together with the finite set of its keys.
Two maps with the same lookups are equal, so a map carries no trace of the order
in which it was filled. Code that walks over a hash map sees its entries in an
order the language leaves open; that order is supplied from outside through an
`Enumeration`, which lists every finite key set exactly once.
-/

/-- A finite map: a lookup function whose domain is the listed key set. -/
structure FiniteMap (K V : Type*) where
  /-- The keys that have an entry. -/
  keys : Finset K
  /-- The entry stored under a key. -/
  get? : K → Option V
  /-- The key set is exactly the domain of the lookup function. -/
  mem_keys_iff : ∀ k, k ∈ keys ↔ (get? k).isSome = true

/-- A way of listing every finite set of keys, once each and without omissions. -/
structure Enumeration (K : Type*) where
  /-- The listing of a finite set. -/
  toList : Finset K → List K
  /-- No key is visited twice. -/
  nodup : ∀ s, (toList s).Nodup
  /-- Exactly the keys of the set are visited. -/
  mem_iff : ∀ s k, k ∈ toList s ↔ k ∈ s

namespace FiniteMap

variable {K V W M : Type*}

/-- Maps with the same lookups are equal. -/
@[ext] theorem ext {m n : FiniteMap K V} (h : ∀ k, m.get? k = n.get? k) : m = n := by
  have hget : m.get? = n.get? := funext h
  have hkeys : m.keys = n.keys := by
    ext k
    rw [m.mem_keys_iff, n.mem_keys_iff, h]
  cases m
  cases n
  simp only at hget hkeys
  subst hget hkeys
  rfl

/-- The map without entries. -/
def empty : FiniteMap K V := ⟨∅, fun _ => none, by simp⟩

instance : EmptyCollection (FiniteMap K V) := ⟨empty⟩

instance : Inhabited (FiniteMap K V) := ⟨empty⟩

/-- A key has an entry. -/
def contains (m : FiniteMap K V) (k : K) : Bool := (m.get? k).isSome

/-- The entry stored under a key, or a default value. -/
def getD (m : FiniteMap K V) (k : K) (default : V) : V := (m.get? k).getD default

/-- No key has an entry. -/
def isEmpty (m : FiniteMap K V) : Bool := decide (m.keys.card = 0)

/-- The entries in the order of an enumeration of the keys. -/
def entries (m : FiniteMap K V) (order : Enumeration K) : List (K × V) :=
  (order.toList m.keys).filterMap fun k => (m.get? k).map (k, ·)

/-- Keep the entries that satisfy a predicate. -/
def filter (m : FiniteMap K V) (p : K → V → Bool) : FiniteMap K V where
  keys := m.keys.filter fun k => ((m.get? k).filter (p k)).isSome = true
  get? k := (m.get? k).filter (p k)
  mem_keys_iff k := by
    simp only [Finset.mem_filter, m.mem_keys_iff, and_iff_right_iff_imp]
    cases m.get? k <;> simp

/-- A value is stored under some key. -/
def HasValue (m : FiniteMap K V) (v : V) : Prop := ∃ k, m.get? k = some v

section DecidableKeys

variable [DecidableEq K]

/-- Store a value under a key, replacing an older entry. -/
def insert (m : FiniteMap K V) (k : K) (v : V) : FiniteMap K V where
  keys := Insert.insert k m.keys
  get? k' := if k' = k then some v else m.get? k'
  mem_keys_iff k' := by
    by_cases h : k' = k <;> simp [h, m.mem_keys_iff]

/-- Remove the entry of a key. -/
def erase (m : FiniteMap K V) (k : K) : FiniteMap K V where
  keys := m.keys.erase k
  get? k' := if k' = k then none else m.get? k'
  mem_keys_iff k' := by
    by_cases h : k' = k <;> simp [h, m.mem_keys_iff]

/-- Change the entry of a key in place; a key without an entry stays without one. -/
def modify (m : FiniteMap K V) (k : K) (f : V → V) : FiniteMap K V :=
  match m.get? k with
  | some v => m.insert k (f v)
  | none => m

/-- Append to the list stored under a key, starting from the empty list. -/
def extend (m : FiniteMap K (List V)) (k : K) (vs : List V) : FiniteMap K (List V) :=
  m.insert k (m.getD k [] ++ vs)

/-- Append the lists of a second map to the lists of the first, entry by entry. -/
def extendAll (m n : FiniteMap K (List V)) (order : Enumeration K) : FiniteMap K (List V) :=
  (n.entries order).foldl (fun m e => m.extend e.1 e.2) m

/-- A map filled from a list of entries; later entries replace earlier ones. -/
def ofList (entries : List (K × V)) : FiniteMap K V :=
  entries.foldl (fun m e => m.insert e.1 e.2) empty

instance [DecidableEq V] : DecidableEq (FiniteMap K V) := fun m n =>
  decidable_of_iff (m.keys = n.keys ∧ ∀ k ∈ m.keys, m.get? k = n.get? k) <| by
    constructor
    · rintro ⟨hkeys, hget⟩
      ext1 k
      by_cases hk : k ∈ m.keys
      · exact hget k hk
      · have hm : m.get? k = none := by simpa [m.mem_keys_iff] using hk
        have hn : n.get? k = none := by
          rw [hkeys] at hk
          simpa [n.mem_keys_iff] using hk
        rw [hm, hn]
    · rintro rfl
      simp

end DecidableKeys

/-! ## Lookups -/

@[simp] theorem get?_empty (k : K) : (∅ : FiniteMap K V).get? k = none := rfl

@[simp] theorem keys_empty : (∅ : FiniteMap K V).keys = ∅ := rfl

@[simp] theorem contains_empty (k : K) : (∅ : FiniteMap K V).contains k = false := rfl

theorem mem_keys {m : FiniteMap K V} {k : K} : k ∈ m.keys ↔ m.contains k = true :=
  m.mem_keys_iff k

theorem contains_iff {m : FiniteMap K V} {k : K} :
    m.contains k = true ↔ ∃ v, m.get? k = some v := Option.isSome_iff_exists

@[simp] theorem contains_eq_false {m : FiniteMap K V} {k : K} :
    m.contains k = false ↔ m.get? k = none := by
  simp [contains]

theorem contains_of_get? {m : FiniteMap K V} {k : K} {v : V} (h : m.get? k = some v) :
    m.contains k = true := contains_iff.mpr ⟨v, h⟩

/-- The entries visited by an enumeration are exactly the stored ones. -/
theorem mem_entries {m : FiniteMap K V} {order : Enumeration K} {k : K} {v : V} :
    (k, v) ∈ m.entries order ↔ m.get? k = some v := by
  simp only [entries, List.mem_filterMap, order.mem_iff, mem_keys]
  constructor
  · rintro ⟨k', _, h⟩
    obtain ⟨v', hv', heq⟩ := Option.map_eq_some_iff.mp h
    cases heq
    exact hv'
  · intro h
    exact ⟨k, contains_of_get? h, by simp [h]⟩

/-- The keys are visited in the order of the enumeration. -/
theorem map_fst_entries (m : FiniteMap K V) (order : Enumeration K) :
    (m.entries order).map Prod.fst = order.toList m.keys := by
  have hmap : ∀ l : List K, (∀ k ∈ l, m.contains k = true) →
      (l.filterMap fun k => (m.get? k).map (k, ·)).map Prod.fst = l := by
    intro l hl
    induction l with
    | nil => rfl
    | cons k l ih =>
      obtain ⟨v, hv⟩ := contains_iff.mp (hl k (by simp))
      have htail := ih fun k' hk' => hl k' (List.mem_cons_of_mem _ hk')
      simp [hv, htail]
  exact hmap _ fun k hk => mem_keys.mp ((order.mem_iff _ _).mp hk)

section DecidableKeys

variable [DecidableEq K]

theorem get?_insert (m : FiniteMap K V) (k k' : K) (v : V) :
    (m.insert k v).get? k' = if k' = k then some v else m.get? k' := rfl

theorem get?_erase (m : FiniteMap K V) (k k' : K) :
    (m.erase k).get? k' = if k' = k then none else m.get? k' := rfl

@[simp] theorem get?_insert_self (m : FiniteMap K V) (k : K) (v : V) :
    (m.insert k v).get? k = some v := by simp [get?_insert]

@[simp] theorem get?_insert_of_ne (m : FiniteMap K V) {k k' : K} (v : V) (h : k' ≠ k) :
    (m.insert k v).get? k' = m.get? k' := by simp [get?_insert, h]

@[simp] theorem get?_erase_self (m : FiniteMap K V) (k : K) : (m.erase k).get? k = none := by
  simp [get?_erase]

@[simp] theorem get?_erase_of_ne (m : FiniteMap K V) {k k' : K} (h : k' ≠ k) :
    (m.erase k).get? k' = m.get? k' := by simp [get?_erase, h]

theorem get?_modify (m : FiniteMap K V) (k k' : K) (f : V → V) :
    (m.modify k f).get? k' = if k' = k then (m.get? k).map f else m.get? k' := by
  unfold modify
  cases h : m.get? k with
  | none => by_cases heq : k' = k <;> simp [heq, h]
  | some v => by_cases heq : k' = k <;> simp [heq]

theorem get?_extend (m : FiniteMap K (List V)) (k k' : K) (vs : List V) :
    (m.extend k vs).get? k' = if k' = k then some (m.getD k [] ++ vs) else m.get? k' := rfl

@[simp] theorem get?_extend_self (m : FiniteMap K (List V)) (k : K) (vs : List V) :
    (m.extend k vs).get? k = some (m.getD k [] ++ vs) := by simp [get?_extend]

@[simp] theorem get?_extend_of_ne (m : FiniteMap K (List V)) {k k' : K} (vs : List V)
    (h : k' ≠ k) : (m.extend k vs).get? k' = m.get? k' := by simp [get?_extend, h]

/-- An entry is appended to by the entries of its own key only. -/
theorem get?_foldl_extend_of_notMem (m : FiniteMap K (List V)) {k : K}
    (es : List (K × List V)) (h : ∀ e ∈ es, e.1 ≠ k) :
    (es.foldl (fun m e => m.extend e.1 e.2) m).get? k = m.get? k := by
  induction es generalizing m with
  | nil => rfl
  | cons e es ih =>
    have hhead : k ≠ e.1 := (h e (by simp)).symm
    have htail : ∀ e' ∈ es, e'.1 ≠ k := fun e' he' => h e' (by simp [he'])
    rw [List.foldl_cons, ih _ htail, get?_extend_of_ne _ _ hhead]

/-- Appending a whole map appends to each key what the second map holds for it. -/
theorem get?_extendAll (m n : FiniteMap K (List V)) (order : Enumeration K) (k : K) :
    (m.extendAll n order).get? k =
      match n.get? k with
      | some vs => some (m.getD k [] ++ vs)
      | none => m.get? k := by
  have hnodup : ((n.entries order).map Prod.fst).Nodup := by
    rw [map_fst_entries]
    exact order.nodup _
  unfold extendAll
  cases hk : n.get? k with
  | none =>
    refine get?_foldl_extend_of_notMem m _ fun e he heq => ?_
    have hget : n.get? e.1 = some e.2 := mem_entries.mp he
    rw [heq, hk] at hget
    cases hget
  | some vs =>
    have hmem : (k, vs) ∈ n.entries order := mem_entries.mpr hk
    obtain ⟨before, after, hsplit⟩ := List.append_of_mem hmem
    rw [hsplit] at hnodup ⊢
    simp only [List.map_append, List.map_cons, List.nodup_append, List.nodup_cons] at hnodup
    obtain ⟨_, ⟨hafter, _⟩, hbefore⟩ := hnodup
    have hleft : ∀ e ∈ before, e.1 ≠ k := fun e he =>
      hbefore e.1 (List.mem_map_of_mem he) k (by simp)
    have hright : ∀ e ∈ after, e.1 ≠ k := by
      rintro e he rfl
      exact hafter (List.mem_map_of_mem he)
    rw [List.foldl_append, List.foldl_cons, get?_foldl_extend_of_notMem _ _ hright]
    simp only [get?_extend_self, getD, get?_foldl_extend_of_notMem _ _ hleft]

/-- The entries of one key. -/
theorem filter_entries (m : FiniteMap K V) (order : Enumeration K) (k : K) :
    (m.entries order).filter (fun e => e.1 = k) = ((m.get? k).map (k, ·)).toList := by
  have hkeys : ((m.entries order).map Prod.fst).Nodup := by
    rw [map_fst_entries]
    exact order.nodup _
  have hnodup : ((m.entries order).filter fun e => e.1 = k).Nodup := hkeys.of_map.filter _
  have hmem (e : K × V) : e ∈ (m.entries order).filter (fun e => e.1 = k) ↔
      m.get? k = some e.2 ∧ e.1 = k := by
    rw [List.mem_filter, mem_entries, decide_eq_true_eq]
    exact ⟨fun ⟨hget, hk⟩ => ⟨hk ▸ hget, hk⟩, fun ⟨hget, hk⟩ => ⟨hk.symm ▸ hget, hk⟩⟩
  cases hget : m.get? k with
  | none =>
    refine List.eq_nil_iff_forall_not_mem.mpr fun e he => ?_
    have hsome := ((hmem e).mp he).1
    rw [hget] at hsome
    cases hsome
  | some v =>
    refine List.perm_singleton.mp
      ((List.perm_ext_iff_of_nodup hnodup (List.nodup_singleton _)).mpr ?_)
    intro e
    rw [hmem, hget, List.mem_singleton]
    constructor
    · rintro ⟨hv, rfl⟩
      rw [Option.some.inj hv]
    · rintro rfl
      exact ⟨rfl, rfl⟩

/-- Removing the keys of a list of entries removes exactly these. -/
theorem get?_foldl_erase (m : FiniteMap K V) (es : List (K × W)) (k : K) :
    (es.foldl (fun m e => m.erase e.1) m).get? k =
      if k ∈ es.map Prod.fst then none else m.get? k := by
  induction es generalizing m with
  | nil => simp
  | cons e es ih =>
    rw [List.foldl_cons, ih]
    by_cases hhead : k = e.1 <;> by_cases htail : k ∈ es.map Prod.fst <;> simp [hhead, htail]

theorem erase_eq_self {m : FiniteMap K V} {k : K} (h : m.get? k = none) : m.erase k = m := by
  ext1 k'
  by_cases heq : k' = k
  · rw [heq, get?_erase_self, h]
  · rw [get?_erase_of_ne _ heq]

end DecidableKeys

theorem contains_of_contains_erase [DecidableEq K] {m : FiniteMap K V} {k k' : K}
    (h : (m.erase k).contains k' = true) : m.contains k' = true := by
  by_cases heq : k' = k
  · rw [contains, heq, get?_erase_self] at h
    cases h
  · rwa [contains, get?_erase_of_ne _ heq] at h

/-! ## Maps filled from lists -/

section OfList

variable [DecidableEq K]

theorem ofList_concat (es : List (K × V)) (e : K × V) :
    ofList (es ++ [e]) = (ofList es).insert e.1 e.2 := by
  unfold ofList
  rw [List.foldl_append]
  rfl

/-- A stored entry is one of the list. -/
theorem mem_of_get?_ofList {es : List (K × V)} {k : K} {v : V} (h : (ofList es).get? k = some v) :
    (k, v) ∈ es := by
  induction es using List.reverseRecOn with
  | nil => cases h
  | append_singleton es e ih =>
    rw [ofList_concat] at h
    by_cases hk : k = e.1
    · subst hk
      rw [get?_insert_self] at h
      rw [← Option.some.inj h]
      exact List.mem_append_right _ (List.mem_singleton_self e)
    · rw [get?_insert_of_ne _ _ hk] at h
      exact List.mem_append_left _ (ih h)

/-- Every listed key has an entry. -/
theorem contains_ofList {es : List (K × V)} {e : K × V} (h : e ∈ es) :
    (ofList es).contains e.1 = true := by
  induction es using List.reverseRecOn with
  | nil => cases h
  | append_singleton es e' ih =>
    rw [ofList_concat, contains]
    by_cases hk : e.1 = e'.1
    · rw [hk, get?_insert_self]
      rfl
    · rw [get?_insert_of_ne _ _ hk]
      rcases List.mem_append.mp h with h | h
      · exact ih h
      · exact absurd (congrArg Prod.fst (List.mem_singleton.mp h)) hk

end OfList

/-! ## Stored values -/

section HasValue

variable {m : FiniteMap K V} {k : K} {v w : V}

instance [DecidableEq V] : DecidablePred m.HasValue := fun v =>
  decidable_of_iff (∃ k ∈ m.keys, m.get? k = some v) <| by
    refine ⟨fun ⟨k, _, h⟩ => ⟨k, h⟩, fun ⟨k, h⟩ => ⟨k, ?_, h⟩⟩
    rw [m.mem_keys_iff, h]
    rfl

variable [DecidableEq K]

theorem hasValue_insert_self : (m.insert k v).HasValue v := ⟨k, get?_insert_self m k v⟩

/-- A new entry under an unused key leaves the stored values stored. -/
theorem HasValue.insert (h : m.HasValue v) (hk : m.get? k = none) :
    (m.insert k w).HasValue v := by
  obtain ⟨k', hk'⟩ := h
  have hne : k' ≠ k := by
    rintro rfl
    rw [hk] at hk'
    cases hk'
  exact ⟨k', (get?_insert_of_ne m w hne).trans hk'⟩

/-- Removing the entry of another value leaves a value stored. -/
theorem HasValue.erase (h : m.HasValue v) (hk : m.get? k ≠ some v) : (m.erase k).HasValue v := by
  obtain ⟨k', hk'⟩ := h
  have hne : k' ≠ k := by
    rintro rfl
    exact hk hk'
  exact ⟨k', (get?_erase_of_ne m hne).trans hk'⟩

end HasValue

/-! ## Totals over the entries -/

section Total

variable [AddCommMonoid M]

/-- The sum of a measure over all stored values. -/
def total (m : FiniteMap K V) (f : K → V → M) : M :=
  ∑ k ∈ m.keys, (m.get? k).elim 0 (f k)

@[simp] theorem total_empty (f : K → V → M) : (∅ : FiniteMap K V).total f = 0 := by
  simp [total]

/-- Listing the entries in any order and summing the measure gives the total. -/
theorem sum_entries (m : FiniteMap K V) (order : Enumeration K) (f : K → V → M) :
    ((m.entries order).map fun e => f e.1 e.2).sum = m.total f := by
  classical
  have hsum : ∀ l : List K, (∀ k ∈ l, m.contains k = true) →
      ((l.filterMap fun k => (m.get? k).map (k, ·)).map fun e => f e.1 e.2).sum =
        (l.map fun k => (m.get? k).elim 0 (f k)).sum := by
    intro l hl
    induction l with
    | nil => rfl
    | cons k l ih =>
      obtain ⟨v, hv⟩ := contains_iff.mp (hl k (by simp))
      have htail := ih fun k' hk' => hl k' (List.mem_cons_of_mem _ hk')
      simp [hv, htail]
  have hfinset : (order.toList m.keys).toFinset = m.keys := by
    ext k
    rw [List.mem_toFinset, order.mem_iff]
  unfold entries
  rw [hsum _ fun k hk => mem_keys.mp ((order.mem_iff _ _).mp hk)]
  rw [← List.sum_toFinset _ (order.nodup _), hfinset]
  rfl

/-- A measure that vanishes on every entry has no total. -/
theorem total_eq_zero {m : FiniteMap K V} {f : K → V → M}
    (h : ∀ k v, m.get? k = some v → f k v = 0) : m.total f = 0 := by
  refine Finset.sum_eq_zero fun k hk => ?_
  obtain ⟨v, hv⟩ := contains_iff.mp (mem_keys.mp hk)
  rw [hv]
  exact h k v hv

/-- The total of a map is at most that of a map which has all its entries that count. -/
theorem total_le_of_get? {m n : FiniteMap K V} {f : K → V → ℕ}
    (h : ∀ k v, n.get? k = some v → f k v ≠ 0 → m.get? k = some v) : n.total f ≤ m.total f := by
  have hsame : ∀ k ∈ n.keys, (n.get? k).elim 0 (f k) ≠ 0 →
      k ∈ m.keys ∧ (n.get? k).elim 0 (f k) = (m.get? k).elim 0 (f k) := by
    intro k hk hne
    obtain ⟨v, hv⟩ := contains_iff.mp (mem_keys.mp hk)
    rw [hv] at hne ⊢
    have hget := h k v hv hne
    exact ⟨mem_keys.mpr (contains_of_get? hget), by rw [hget]⟩
  calc n.total f
      = ∑ k ∈ n.keys with (n.get? k).elim 0 (f k) ≠ 0, (n.get? k).elim 0 (f k) :=
        (Finset.sum_filter_ne_zero _).symm
    _ = ∑ k ∈ n.keys with (n.get? k).elim 0 (f k) ≠ 0, (m.get? k).elim 0 (f k) :=
        Finset.sum_congr rfl fun k hk =>
          (hsame k (Finset.mem_filter.mp hk).1 (Finset.mem_filter.mp hk).2).2
    _ ≤ m.total f := Finset.sum_le_sum_of_subset fun k hk =>
        (hsame k (Finset.mem_filter.mp hk).1 (Finset.mem_filter.mp hk).2).1

variable [DecidableEq K]

/-- Removing an entry takes its measure out of the total. -/
theorem total_erase (m : FiniteMap K V) (k : K) (f : K → V → M) :
    (m.erase k).total f + (m.get? k).elim 0 (f k) = m.total f := by
  have hrest : (m.erase k).total f = ∑ k' ∈ m.keys.erase k, (m.get? k').elim 0 (f k') := by
    refine Finset.sum_congr rfl fun k' hk' => ?_
    rw [get?_erase_of_ne _ (Finset.ne_of_mem_erase hk')]
  by_cases hk : k ∈ m.keys
  · rw [hrest]
    exact Finset.sum_erase_add _ _ hk
  · have hnone : m.get? k = none := by simpa [m.mem_keys_iff] using hk
    rw [erase_eq_self hnone, hnone]
    exact add_zero _

/-- Removing a present entry splits the total into the rest and its measure. -/
theorem total_erase_of_get? {m : FiniteMap K V} {k : K} {v : V} (h : m.get? k = some v)
    (f : K → V → M) : (m.erase k).total f + f k v = m.total f := by
  simpa [h] using m.total_erase k f

/-- Storing a value replaces the measure of the older entry by that of the new one. -/
theorem total_insert (m : FiniteMap K V) (k : K) (v : V) (f : K → V → M) :
    (m.insert k v).total f = (m.erase k).total f + f k v := by
  have herase : (m.insert k v).erase k = m.erase k := by
    ext1 k'
    by_cases h : k' = k <;> simp [h]
  rw [← total_erase_of_get? (get?_insert_self m k v) f, herase]

/-- Appending to a stored list adds the measure of the appended values. -/
theorem total_extend (m : FiniteMap K (List V)) (k : K) (vs : List V) (f : K → List V → M)
    (hnil : ∀ k, f k [] = 0) (happend : ∀ k xs ys, f k (xs ++ ys) = f k xs + f k ys) :
    (m.extend k vs).total f = m.total f + f k vs := by
  rw [extend, total_insert, happend, ← add_assoc, ← m.total_erase k f]
  congr 2
  cases h : m.get? k <;> simp [getD, h, hnil]

/-- Appending a whole map adds its measure. -/
theorem total_extendAll (m n : FiniteMap K (List V)) (order : Enumeration K)
    (f : K → List V → M) (hnil : ∀ k, f k [] = 0)
    (happend : ∀ k xs ys, f k (xs ++ ys) = f k xs + f k ys) :
    (m.extendAll n order).total f = m.total f + n.total f := by
  have hfold : ∀ (es : List (K × List V)) (m : FiniteMap K (List V)),
      (es.foldl (fun m e => m.extend e.1 e.2) m).total f =
        m.total f + (es.map fun e => f e.1 e.2).sum := by
    intro es
    induction es with
    | nil => simp
    | cons e es ih =>
      intro m
      rw [List.foldl_cons, ih, total_extend m e.1 e.2 f hnil happend, List.map_cons,
        List.sum_cons, add_assoc]
  rw [extendAll, hfold, sum_entries]

end Total

end FiniteMap

namespace Enumeration

variable {K : Type*}

/-- An enumerated set contains each of its elements once. -/
theorem count_toList [DecidableEq K] (order : Enumeration K) (keys : Finset K) (k : K) :
    (order.toList keys).count k = if k ∈ keys then 1 else 0 := by
  split
  · rename_i h
    exact List.count_eq_one_of_mem (order.nodup keys) ((order.mem_iff keys k).mpr h)
  · rename_i h
    exact List.count_eq_zero_of_not_mem fun hmem => h ((order.mem_iff keys k).mp hmem)

/-- Two enumerations list a set in different orders. -/
theorem toList_perm (order order' : Enumeration K) (keys : Finset K) :
    (order'.toList keys).Perm (order.toList keys) := by
  rw [List.perm_ext_iff_of_nodup (order'.nodup _) (order.nodup _)]
  intro k
  rw [order'.mem_iff, order.mem_iff]

@[simp] theorem toList_empty (order : Enumeration K) : order.toList ∅ = [] :=
  List.eq_nil_iff_forall_not_mem.mpr fun k hk => by simp [order.mem_iff] at hk

@[simp] theorem toList_singleton [DecidableEq K] (order : Enumeration K) (k : K) :
    order.toList {k} = [k] := by
  refine List.perm_singleton.mp ?_
  rw [List.perm_ext_iff_of_nodup (order.nodup _) (List.nodup_singleton k)]
  intro k'
  rw [order.mem_iff, Finset.mem_singleton, List.mem_singleton]

/-- The enumeration that lists a given key first. -/
def moveToFront [DecidableEq K] (order : Enumeration K) (k : K) : Enumeration K where
  toList keys := if k ∈ keys then k :: order.toList (keys.erase k) else order.toList keys
  nodup keys := by
    split
    · rw [List.nodup_cons, order.mem_iff]
      exact ⟨Finset.notMem_erase k keys, order.nodup _⟩
    · exact order.nodup keys
  mem_iff keys k' := by
    split
    · rename_i hk
      rw [List.mem_cons, order.mem_iff, Finset.mem_erase]
      by_cases h : k' = k
      · simp [h, hk]
      · simp [h]
    · exact order.mem_iff keys k'

/-- The given key is listed first. -/
theorem toList_moveToFront [DecidableEq K] (order : Enumeration K) {keys : Finset K} {k : K}
    (h : k ∈ keys) :
    (order.moveToFront k).toList keys = k :: order.toList (keys.erase k) := if_pos h

/-- The enumeration that lists keys in increasing order of an injective rank. -/
def sortedBy {α : Type*} [LinearOrder α] (rank : K → α) (hrank : Function.Injective rank) :
    Enumeration K :=
  letI : LinearOrder K := LinearOrder.lift' rank hrank
  { toList := fun s => Quot.liftOn s.val (fun l => l.insertionSort (· ≤ ·)) fun l l' hperm =>
      ((l.perm_insertionSort (· ≤ ·)).trans (hperm.trans
        (l'.perm_insertionSort (· ≤ ·)).symm)).eq_of_pairwise'
          (l.pairwise_insertionSort (· ≤ ·)) (l'.pairwise_insertionSort (· ≤ ·))
    nodup := by
      rintro ⟨⟨l⟩, hnodup⟩
      exact (l.perm_insertionSort (· ≤ ·)).nodup_iff.mpr hnodup
    mem_iff := by
      rintro ⟨⟨l⟩, hnodup⟩ k
      exact (l.perm_insertionSort (· ≤ ·)).mem_iff }

end Enumeration

/-- The entry of the key that is listed first is visited first. -/
theorem FiniteMap.entries_moveToFront {K V : Type*} [DecidableEq K] (m : FiniteMap K V)
    (order : Enumeration K) {k : K} {v : V} (h : m.get? k = some v) :
    ∃ es, m.entries (order.moveToFront k) = (k, v) :: es := by
  have hk : k ∈ m.keys := mem_keys.mpr (contains_of_get? h)
  unfold entries
  rw [order.toList_moveToFront hk, List.filterMap_cons, h]
  exact ⟨_, rfl⟩
