import Mathlib.Data.List.Pairwise
import Mathlib.Order.Lattice

/-!
# Maps in the order of their keys

A map from keys to values as the list of its entries, in the order of the keys. Going through the
map goes through this list.
-/

/-- Entries with increasing keys. -/
structure SortedMap (κ υ : Type*) [LinearOrder κ] where
  /-- The entries. -/
  entries : List (κ × υ)
  /-- They come in the order of their keys. -/
  sorted : entries.Pairwise fun e e' => e.1 < e'.1

namespace SortedMap

variable {κ υ : Type*} [LinearOrder κ] {k k' : κ} {v : υ} {es : List (κ × υ)}

/-- The first value at a key. -/
def lookup (k : κ) : List (κ × υ) → Option υ
  | [] => none
  | e :: es => if k = e.1 then some e.2 else lookup k es

/-- Put an entry where its key belongs. -/
def insertEntry (k : κ) (v : υ) : List (κ × υ) → List (κ × υ)
  | [] => [(k, v)]
  | e :: es =>
    if k < e.1 then (k, v) :: e :: es
    else if k = e.1 then (k, v) :: es
    else e :: insertEntry k v es

/-- An entry of the result is the new one or was there. -/
theorem mem_insertEntry {e : κ × υ} (h : e ∈ insertEntry k v es) : e = (k, v) ∨ e ∈ es := by
  induction es with
  | nil => exact .inl (List.mem_singleton.mp h)
  | cons e' es ih =>
    unfold insertEntry at h
    split_ifs at h
    · exact (List.mem_cons.mp h).imp_right id
    · exact (List.mem_cons.mp h).imp_right (List.mem_cons_of_mem e')
    · rcases List.mem_cons.mp h with rfl | h
      · exact .inr List.mem_cons_self
      · exact (ih h).imp_right (List.mem_cons_of_mem e')

/-- The order is kept. -/
theorem sorted_insertEntry (h : es.Pairwise fun e e' => e.1 < e'.1) :
    (insertEntry k v es).Pairwise fun e e' => e.1 < e'.1 := by
  induction es with
  | nil => exact List.pairwise_singleton _ _
  | cons e es ih =>
    obtain ⟨hfirst, hrest⟩ := List.pairwise_cons.mp h
    unfold insertEntry
    split_ifs with hlt heq
    · refine List.pairwise_cons.mpr ⟨fun e' he' => ?_, h⟩
      rcases List.mem_cons.mp he' with rfl | he'
      · exact hlt
      · exact lt_trans hlt (hfirst e' he')
    · refine List.pairwise_cons.mpr ⟨fun e' he' => ?_, hrest⟩
      rw [heq]
      exact hfirst e' he'
    · refine List.pairwise_cons.mpr ⟨fun e' he' => ?_, ih hrest⟩
      rcases mem_insertEntry he' with rfl | he'
      · exact lt_of_le_of_ne (not_lt.mp hlt) (Ne.symm heq)
      · exact hfirst e' he'

/-- The new entry is found. -/
theorem lookup_insertEntry_self : lookup k (insertEntry k v es) = some v := by
  induction es with
  | nil => rw [insertEntry, lookup, if_pos rfl]
  | cons e es ih =>
    unfold insertEntry
    split_ifs with hlt heq
    · rw [lookup, if_pos rfl]
    · rw [lookup, if_pos rfl]
    · rw [lookup, if_neg heq, ih]

/-- Other keys have the values that they had. -/
theorem lookup_insertEntry_of_ne (hne : k' ≠ k) :
    lookup k' (insertEntry k v es) = lookup k' es := by
  induction es with
  | nil => exact if_neg hne
  | cons e es ih =>
    unfold insertEntry
    split_ifs with hlt heq
    · rw [lookup, if_neg hne]
    · rw [lookup, if_neg hne, lookup, ← heq, if_neg hne]
    · rw [lookup, lookup, ih]

/-- The map without entries. -/
def empty : SortedMap κ υ := ⟨[], .nil⟩

/-- The value at a key. -/
def get? (m : SortedMap κ υ) (k : κ) : Option υ := lookup k m.entries

/-- Set the value at a key. -/
def insert (m : SortedMap κ υ) (k : κ) (v : υ) : SortedMap κ υ :=
  ⟨insertEntry k v m.entries, sorted_insertEntry m.sorted⟩

@[simp] theorem get?_empty : (empty : SortedMap κ υ).get? k = none := rfl

@[simp] theorem get?_insert (m : SortedMap κ υ) :
    (m.insert k v).get? k' = if k' = k then some v else m.get? k' := by
  split_ifs with hkey
  · rw [hkey]
    exact lookup_insertEntry_self
  · exact lookup_insertEntry_of_ne hkey

/-- A value that is found is that of an entry. -/
theorem mem_of_lookup (h : lookup k es = some v) : (k, v) ∈ es := by
  induction es with
  | nil => cases h
  | cons e es ih =>
    rw [lookup] at h
    split_ifs at h with hkey
    · cases h
      rw [hkey]
      exact List.mem_cons_self
    · exact List.mem_cons_of_mem e (ih h)

/-! ## Keys that may have a value -/

/-- Set the keys that have a value. -/
def insertAll (m : SortedMap κ υ) (options : List (κ × Option υ)) : SortedMap κ υ :=
  options.foldl (fun m o => o.2.elim m (m.insert o.1)) m

/-- The keys that have a value, with it. -/
def present (options : List (κ × Option υ)) : List (κ × υ) :=
  options.filterMap fun o => o.2.map fun v => (o.1, v)

variable {options : List (κ × Option υ)}

omit [LinearOrder κ] in
/-- One more key that may have a value is present or not. -/
theorem present_concat (o : κ × Option υ) :
    present (options ++ [o]) = o.2.elim (present options) fun v => present options ++ [(o.1, v)] := by
  obtain ⟨key, value⟩ := o
  cases value with
  | none => simp [present]
  | some v => simp [present]

/-- One more key that may have a value is set or not. -/
theorem insertAll_concat (m : SortedMap κ υ) (o : κ × Option υ) :
    m.insertAll (options ++ [o]) =
      o.2.elim (m.insertAll options) ((m.insertAll options).insert o.1) := by
  rw [insertAll, List.foldl_append]
  rfl

omit [LinearOrder κ] in
/-- Only keys that are set are present. -/
theorem map_present_sublist (options : List (κ × Option υ)) :
    ((present options).map Prod.fst).Sublist (options.map Prod.fst) := by
  induction options with
  | nil => exact List.Sublist.refl _
  | cons o options ih =>
    obtain ⟨key, value⟩ := o
    cases value with
    | none => exact ih.cons key
    | some v => exact ih.cons_cons key

omit [LinearOrder κ] in
/-- Keys that differ still differ when some of them are left out. -/
theorem nodup_present (h : (options.map Prod.fst).Nodup) :
    ((present options).map Prod.fst).Nodup :=
  h.sublist (map_present_sublist options)

/-- A key that is not set has no value. -/
theorem lookup_present_of_notMem (h : k ∉ options.map Prod.fst) :
    lookup k (present options) = none := by
  induction options with
  | nil => rfl
  | cons o options ih =>
    rw [List.map_cons, List.mem_cons, not_or] at h
    obtain ⟨key, value⟩ := o
    cases value with
    | none => exact ih h.2
    | some v => exact (if_neg h.1).trans (ih h.2)

/-- Keys that differ have the values that are given for them. -/
theorem lookup_present (hkeys : (options.map Prod.fst).Nodup) :
    ∀ o ∈ options, lookup o.1 (present options) = o.2 := by
  induction options with
  | nil => exact fun o ho => absurd ho List.not_mem_nil
  | cons o options ih =>
    rw [List.map_cons, List.nodup_cons] at hkeys
    obtain ⟨key, value⟩ := o
    have hne (o' : κ × Option υ) (hmem : o' ∈ options) : o'.1 ≠ key := fun heq =>
      hkeys.1 (heq ▸ List.mem_map.mpr ⟨o', hmem, rfl⟩)
    intro o' ho'
    cases value with
    | none =>
      change lookup o'.1 (present options) = o'.2
      rcases List.mem_cons.mp ho' with rfl | hmem
      · exact lookup_present_of_notMem hkeys.1
      · exact ih hkeys.2 o' hmem
    | some v =>
      rcases List.mem_cons.mp ho' with rfl | hmem
      · exact if_pos rfl
      · exact (if_neg (hne o' hmem)).trans (ih hkeys.2 o' hmem)

/-- A key that is not set keeps its value. -/
theorem get?_insertAll_of_notMem (m : SortedMap κ υ) (h : k ∉ options.map Prod.fst) :
    (m.insertAll options).get? k = m.get? k := by
  induction options generalizing m with
  | nil => rfl
  | cons o options ih =>
    rw [List.map_cons, List.mem_cons, not_or] at h
    obtain ⟨key, value⟩ := o
    cases value with
    | none => exact ih m h.2
    | some v => exact (ih (m.insert key v) h.2).trans (by rw [get?_insert, if_neg h.1])

/-- The entries have keys that were there or that are set. -/
theorem mem_insertAll {e : κ × υ} (m : SortedMap κ υ) (h : e ∈ (m.insertAll options).entries) :
    e ∈ m.entries ∨ e.1 ∈ options.map Prod.fst := by
  induction options generalizing m with
  | nil => exact .inl h
  | cons o options ih =>
    obtain ⟨key, value⟩ := o
    cases value with
    | none =>
      rcases ih m h with hmem | hmem
      · exact .inl hmem
      · exact .inr (List.mem_cons_of_mem key hmem)
    | some v =>
      rcases ih (m.insert key v) h with hmem | hmem
      · rcases mem_insertEntry hmem with rfl | hmem
        · exact .inr List.mem_cons_self
        · exact .inl hmem
      · exact .inr (List.mem_cons_of_mem key hmem)

/-- Keys that differ and were not there have the values that are given for them. -/
theorem get?_insertAll (m : SortedMap κ υ) (hkeys : (options.map Prod.fst).Nodup)
    (hm : ∀ o ∈ options, m.get? o.1 = none) :
    ∀ o ∈ options, (m.insertAll options).get? o.1 = o.2 := by
  induction options generalizing m with
  | nil => exact fun o ho => absurd ho List.not_mem_nil
  | cons o options ih =>
    rw [List.map_cons, List.nodup_cons] at hkeys
    have hrest : ∀ o' ∈ options, m.get? o'.1 = none := fun o' ho' =>
      hm o' (List.mem_cons_of_mem o ho')
    obtain ⟨key, value⟩ := o
    intro o' ho'
    cases value with
    | none =>
      rcases List.mem_cons.mp ho' with rfl | hmem
      · exact (get?_insertAll_of_notMem m hkeys.1).trans (hm _ List.mem_cons_self)
      · exact ih m hkeys.2 hrest o' hmem
    | some v =>
      rcases List.mem_cons.mp ho' with rfl | hmem
      · refine (get?_insertAll_of_notMem (m.insert key v) hkeys.1).trans ?_
        rw [get?_insert, if_pos rfl]
      · refine ih (m.insert key v) hkeys.2 (fun o ho => ?_) o' hmem
        have hne : o.1 ≠ key := fun heq => hkeys.1 (heq ▸ List.mem_map.mpr ⟨o, ho, rfl⟩)
        rw [get?_insert, if_neg hne, hrest o ho]

end SortedMap
