import Mathlib.Data.List.Forall2
import Mathlib.Data.List.Infix

/-!
# Texts with separators

A text is a list of characters. It is split in two at the first or at the last occurrence of a
separator, and a list of texts is joined with a separator and split at it again. Whoever renders
values with separators reads them back if no separator comes too early in what is rendered.
-/

namespace Text

variable {α : Type*} [DecidableEq α]

/-- Split at the first occurrence of a separator. -/
def splitOnce (sep : List α) : List α → Option (List α × List α)
  | [] => if sep = [] then some ([], []) else none
  | x :: xs =>
    if sep <+: x :: xs then some ([], (x :: xs).drop sep.length)
    else (splitOnce sep xs).map fun parts => (x :: parts.1, parts.2)

/-- Split at the last occurrence of a separator. -/
def rsplitOnce (sep : List α) (xs : List α) : Option (List α × List α) :=
  (splitOnce sep.reverse xs.reverse).map fun parts => (parts.2.reverse, parts.1.reverse)

/-- Read the parts of a text between separators, up to the first part that cannot be read. -/
def readAll {ε σ : Type*} (sep : α) (read : List α → Except ε σ) (xs : List α) :
    Except ε (List σ) :=
  (xs.splitOn sep).mapM read

/-- Write values with separators between them. -/
def writeAll {σ : Type*} (sep : α) (write : σ → List α) (vs : List σ) : List α :=
  [sep].intercalate (vs.map write)

section Split

variable {sep xs before after : List α} {c : α}

/-- What is split was put together of its parts and the separator. -/
theorem eq_append_of_splitOnce (h : splitOnce sep xs = some (before, after)) :
    xs = before ++ sep ++ after := by
  induction xs generalizing before with
  | nil =>
    unfold splitOnce at h
    split at h
    · rename_i hsep
      cases h
      rw [hsep]
      rfl
    · cases h
  | cons x xs ih =>
    unfold splitOnce at h
    split at h
    · rename_i hinitial
      cases h
      obtain ⟨rest, hrest⟩ := hinitial
      rw [← hrest, List.drop_left, List.nil_append]
    · obtain ⟨⟨before', after'⟩, hsplit, heq⟩ := Option.map_eq_some_iff.mp h
      cases heq
      rw [ih hsplit]
      rfl

/-- A separator whose first character does not come earlier is found. -/
theorem splitOnce_append (hc : c ∉ before) :
    splitOnce (c :: sep) (before ++ (c :: sep) ++ after) = some (before, after) := by
  induction before with
  | nil =>
    have hinitial : c :: sep <+: c :: (sep ++ after) := List.prefix_append (c :: sep) after
    rw [List.nil_append, List.cons_append, splitOnce, if_pos hinitial]
    rw [← List.cons_append, List.drop_left]
  | cons x before ih =>
    rw [List.mem_cons, not_or] at hc
    have hnot : ¬c :: sep <+: x :: (before ++ (c :: sep) ++ after) := fun h =>
      hc.1 (List.cons_prefix_cons.mp h).1
    rw [List.cons_append, List.cons_append, splitOnce, if_neg hnot, ih hc.2]
    rfl

/-- A single character does not come before the place where it is found first. -/
theorem notMem_of_splitOnce (h : splitOnce [c] xs = some (before, after)) : c ∉ before := by
  induction xs generalizing before with
  | nil => cases h
  | cons x xs ih =>
    unfold splitOnce at h
    split at h
    · cases h
      exact List.not_mem_nil
    · rename_i hnot
      obtain ⟨⟨before', after'⟩, hsplit, heq⟩ := Option.map_eq_some_iff.mp h
      cases heq
      have hne : c ≠ x := fun heq => hnot (List.cons_prefix_cons.mpr ⟨heq, List.nil_prefix⟩)
      simpa [hne] using ih hsplit

/-- A single character is found at its first occurrence. -/
theorem splitOnce_singleton_iff :
    splitOnce [c] xs = some (before, after) ↔ xs = before ++ c :: after ∧ c ∉ before := by
  constructor
  · intro h
    exact ⟨by simpa using eq_append_of_splitOnce h, notMem_of_splitOnce h⟩
  · rintro ⟨rfl, hc⟩
    have h : splitOnce (c :: []) (before ++ (c :: []) ++ after) = some (before, after) :=
      splitOnce_append hc
    simpa using h

/-- A single character is found from the right at its last occurrence. -/
theorem rsplitOnce_singleton_iff :
    rsplitOnce [c] xs = some (before, after) ↔ xs = before ++ c :: after ∧ c ∉ after := by
  have hreverse : xs.reverse = after.reverse ++ c :: before.reverse ↔
      xs = before ++ c :: after := by
    rw [← List.reverse_inj, List.reverse_reverse]
    simp
  have hmem : c ∉ after ↔ c ∉ after.reverse := by rw [List.mem_reverse]
  rw [hmem, ← hreverse, ← splitOnce_singleton_iff]
  unfold rsplitOnce
  rw [List.reverse_singleton, Option.map_eq_some_iff]
  constructor
  · rintro ⟨⟨back, front⟩, hsplit, heq⟩
    cases heq
    simpa using hsplit
  · intro hsplit
    exact ⟨_, hsplit, by simp⟩

/-- A text with a certain character has a last one. -/
theorem exists_rsplitOnce (hc : c ∈ xs) :
    ∃ before after, rsplitOnce [c] xs = some (before, after) := by
  obtain ⟨back, front, hreverse, hback⟩ := List.eq_append_cons_of_mem (List.mem_reverse.mpr hc)
  refine ⟨front.reverse, back.reverse, rsplitOnce_singleton_iff.mpr ⟨?_, by simpa using hback⟩⟩
  rw [← List.reverse_reverse xs, hreverse]
  simp

omit [DecidableEq α] in
/-- No other occurrence of a character comes later than one that it does not follow. -/
theorem length_le_of_notMem {before' after' : List α} (hc : c ∉ after)
    (h : before ++ c :: after = before' ++ c :: after') : before'.length ≤ before.length := by
  by_contra hlt
  have hmem : c ∈ (before ++ c :: after).drop (before.length + 1) := by
    rw [h, List.drop_append_of_le_length (by omega)]
    exact List.mem_append_right _ List.mem_cons_self
  rw [← List.drop_drop, List.drop_left] at hmem
  exact hc hmem

end Split

section Tail

variable {β : Type*} {p : β → Prop} {n : ℕ} {xs ys : List β} {c : β}

/-- At most so many characters at the end of a text are of a certain kind. -/
def ShortTail (p : β → Prop) (n : ℕ) (xs : List β) : Prop :=
  ∀ tail, tail <:+ xs → (∀ c ∈ tail, p c) → tail.length ≤ n

/-- A short text has a short tail. -/
theorem ShortTail.of_length_le (h : xs.length ≤ n) : ShortTail p n xs :=
  fun _ htail _ => le_trans htail.length_le h

/-- The end of a text with a short tail has one. -/
theorem ShortTail.of_suffix (h : ShortTail p n xs) (hsuffix : ys <:+ xs) : ShortTail p n ys :=
  fun tail htail => h tail (htail.trans hsuffix)

/-- A tail ends where a character of another kind comes. -/
theorem ShortTail.append_cons (hc : ¬p c) (h : ShortTail p n ys) :
    ShortTail p n (xs ++ c :: ys) := by
  intro tail htail hall
  rcases List.suffix_or_suffix_of_suffix htail (List.suffix_append xs (c :: ys)) with hin | hout
  · rcases List.suffix_cons_iff.mp hin with rfl | hin
    · exact absurd (hall c List.mem_cons_self) hc
    · exact h tail hin hall
  · exact absurd (hall c (hout.subset List.mem_cons_self)) hc

/-- A character of another kind before a text does not make its tail longer. -/
theorem ShortTail.cons (hc : ¬p c) (h : ShortTail p n ys) : ShortTail p n (c :: ys) :=
  (h.append_cons hc : ShortTail p n ([] ++ c :: ys))

end Tail

section Codes

variable {β : Type*} {encode : α → List β} {decode : List β → Option (α × List β)} {stop : β}

omit [DecidableEq α] in
/-- Characters whose codes can be decoded one by one, up to a code that stops, are determined by
the codes one after the other, and so is what follows. -/
theorem flatMap_append_inj (hdecode : ∀ a rest, decode (encode a ++ rest) = some (a, rest))
    (hstop : ∀ rest, decode (stop :: rest) = none) {as bs : List α} {xs ys : List β}
    (h : as.flatMap encode ++ stop :: xs = bs.flatMap encode ++ stop :: ys) :
    as = bs ∧ xs = ys := by
  induction as generalizing bs with
  | nil =>
    cases bs with
    | nil => exact ⟨rfl, (List.cons.inj h).2⟩
    | cons b bs =>
      have hnone := congrArg decode h
      rw [List.flatMap_nil, List.nil_append, hstop, List.flatMap_cons, List.append_assoc,
        hdecode] at hnone
      cases hnone
  | cons a as ih =>
    cases bs with
    | nil =>
      have hnone := congrArg decode h
      rw [List.flatMap_nil, List.nil_append, hstop, List.flatMap_cons, List.append_assoc,
        hdecode] at hnone
      cases hnone
    | cons b bs =>
      have hfirst := congrArg decode h
      rw [List.flatMap_cons, List.flatMap_cons, List.append_assoc, List.append_assoc, hdecode,
        hdecode, Option.some.injEq, Prod.mk.injEq] at hfirst
      obtain ⟨rfl, hrest⟩ := ih hfirst.2
      exact ⟨by rw [hfirst.1], hrest⟩

end Codes

section Steps

universe u

variable {ε ε' : Type*} {σ τ : Type u}

/-- A step and what depends on it succeed one after the other. -/
theorem bind_eq_ok_iff {x : Except ε σ} {f : σ → Except ε τ} {w : τ} :
    (x >>= f) = .ok w ↔ ∃ v, x = .ok v ∧ f v = .ok w := by
  cases x <;> simp [bind, Except.bind]

/-- Whether a step succeeds does not depend on how its errors are reported. -/
theorem mapError_eq_ok_iff {x : Except ε σ} {f : ε → ε'} {v : σ} :
    x.mapError f = .ok v ↔ x = .ok v := by
  cases x <;> simp [Except.mapError]

end Steps

section All

variable {ε σ : Type*} {sep : α} {read : List α → Except ε σ} {write : σ → List α}

/-- The separator is in none of the parts. -/
theorem notMem_of_mem_splitOn {xs part : List α} (hpart : part ∈ xs.splitOn sep) :
    sep ∉ part := by
  induction xs generalizing part with
  | nil =>
    rw [List.splitOn_nil, List.mem_singleton] at hpart
    rw [hpart]
    exact List.not_mem_nil
  | cons x xs ih =>
    rw [List.splitOn_cons_eq_if_modifyHead] at hpart
    split at hpart
    · rcases List.mem_cons.mp hpart with rfl | hpart
      · exact List.not_mem_nil
      · exact ih hpart
    · rename_i hx
      obtain ⟨first, parts, hparts⟩ := List.exists_cons_of_ne_nil (List.splitOn_ne_nil sep xs)
      rw [hparts, List.modifyHead_cons] at hpart
      rcases List.mem_cons.mp hpart with rfl | hpart
      · have hfirst : sep ∉ first := ih (hparts ▸ List.mem_cons_self)
        have hne : sep ≠ x := fun heq => hx (by simp [heq])
        simp [hne, hfirst]
      · exact ih (hparts ▸ List.mem_cons_of_mem first hpart)

omit [DecidableEq α] in
/-- Reading part by part succeeds if every part reads as its value. -/
theorem mapM_eq_ok_iff {parts : List (List α)} {vs : List σ} :
    parts.mapM read = .ok vs ↔ List.Forall₂ (fun part v => read part = .ok v) parts vs := by
  induction parts generalizing vs with
  | nil =>
    rw [List.mapM_nil, List.forall₂_nil_left_iff]
    exact ⟨fun h => by cases h; rfl, fun h => by rw [h]; rfl⟩
  | cons part parts ih =>
    rw [List.mapM_cons, List.forall₂_cons_left_iff, bind_eq_ok_iff]
    simp only [bind_eq_ok_iff, ih]
    simp [pure, Except.pure, eq_comm]

omit [DecidableEq α] in
/-- Every value that is read was read from one of the parts. -/
theorem exists_of_mapM {parts : List (List α)} {vs : List σ} {v : σ}
    (h : parts.mapM read = .ok vs) (hv : v ∈ vs) : ∃ part ∈ parts, read part = .ok v := by
  have hread := mapM_eq_ok_iff.mp h
  clear h
  induction hread with
  | nil => cases hv
  | @cons part value parts vs hpart hrest ih =>
    rcases List.mem_cons.mp hv with rfl | hv
    · exact ⟨part, List.mem_cons_self, hpart⟩
    · obtain ⟨part', hmem, hpart'⟩ := ih hv
      exact ⟨part', List.mem_cons_of_mem part hmem, hpart'⟩

/-- What is read is not empty, as a text has at least one part. -/
theorem ne_nil_of_readAll {xs : List α} {vs : List σ} (h : readAll sep read xs = .ok vs) :
    vs ≠ [] := by
  rintro rfl
  exact List.splitOn_ne_nil sep xs (List.forall₂_nil_right_iff.mp (mapM_eq_ok_iff.mp h))

/-- Every value that is read was read from a part without separators. -/
theorem exists_part_of_readAll {xs : List α} {vs : List σ} {v : σ}
    (h : readAll sep read xs = .ok vs) (hv : v ∈ vs) : ∃ part, sep ∉ part ∧ read part = .ok v := by
  have hparts : ∀ part ∈ xs.splitOn sep, sep ∉ part := fun part => notMem_of_mem_splitOn
  have hread : List.Forall₂ (fun part v => read part = .ok v) (xs.splitOn sep) vs :=
    mapM_eq_ok_iff.mp h
  clear h
  generalize xs.splitOn sep = parts at hparts hread
  induction hread with
  | nil => cases hv
  | @cons part value parts vs hpart hrest ih =>
    rcases List.mem_cons.mp hv with rfl | hv
    · exact ⟨part, hparts part List.mem_cons_self, hpart⟩
    · exact ih hv fun p hp => hparts p (List.mem_cons_of_mem part hp)

/-- Values that are written without the separator are read back one by one. -/
theorem readAll_writeAll_iff {vs : List σ} (hne : vs ≠ []) (hsep : ∀ v ∈ vs, sep ∉ write v) :
    readAll sep read (writeAll sep write vs) = .ok vs ↔ ∀ v ∈ vs, read (write v) = .ok v := by
  have hparts : ∀ part ∈ vs.map write, sep ∉ part := by simpa using hsep
  have hmap : vs.map write ≠ [] := by simpa using hne
  unfold readAll writeAll
  rw [List.splitOn_intercalate sep hparts hmap, mapM_eq_ok_iff, List.forall₂_map_left_iff,
    List.forall₂_same]

/-- Values that were read from parts of a text survive being written and read again if each of
them does. -/
theorem readAll_writeAll_of_readAll {xs : List α} {vs : List σ} {good : σ → Prop}
    (h : readAll sep read xs = .ok vs)
    (hwrite : ∀ part v, sep ∉ part → read part = .ok v → sep ∉ write v)
    (hgood : ∀ part v, read part = .ok v → (read (write v) = .ok v ↔ good v)) :
    readAll sep read (writeAll sep write vs) = .ok vs ↔ ∀ v ∈ vs, good v := by
  have hsep : ∀ v ∈ vs, sep ∉ write v := by
    intro v hv
    obtain ⟨part, hpart, hread⟩ := exists_part_of_readAll h hv
    exact hwrite part v hpart hread
  rw [readAll_writeAll_iff (ne_nil_of_readAll h) hsep]
  refine forall₂_congr fun v hv => ?_
  obtain ⟨part, -, hread⟩ := exists_part_of_readAll h hv
  exact hgood part v hread

end All

end Text
