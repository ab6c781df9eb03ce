import Mathlib.Data.Nat.Notation
import Mathlib.Tactic.Ring

/-!
# Frames on a byte stream

A frame is a number of bytes after their length, which is written in a fixed width, the most
significant byte first. What follows a frame on the stream stays unread when the frame is taken
off it.
-/

namespace Framing

/-- A number in a fixed width, the most significant byte first. -/
def toBeBytes : ℕ → ℕ → List UInt8
  | 0, _ => []
  | width + 1, n => toBeBytes width (n / 256) ++ [UInt8.ofNat (n % 256)]

/-- The number that bytes stand for, the most significant first. -/
def fromBeBytes (bytes : List UInt8) : ℕ := bytes.foldl (fun n byte => 256 * n + byte.toNat) 0

/-- Take bytes off a stream that has that many. -/
def readExact (n : ℕ) (stream : List UInt8) : Option (List UInt8 × List UInt8) :=
  if n ≤ stream.length then some (stream.take n, stream.drop n) else none

@[simp] theorem length_toBeBytes (width n : ℕ) : (toBeBytes width n).length = width := by
  induction width generalizing n with
  | zero => rfl
  | succ width ih => rw [toBeBytes, List.length_append, ih, List.length_singleton]

/-- One more byte is one step of the accumulation in base 256. -/
theorem fromBeBytes_append_singleton (bytes : List UInt8) (byte : UInt8) :
    fromBeBytes (bytes ++ [byte]) = 256 * fromBeBytes bytes + byte.toNat := by
  rw [fromBeBytes, List.foldl_append]
  rfl

/-- A number that fits into the width is read back. -/
theorem fromBeBytes_toBeBytes {width n : ℕ} (h : n < 256 ^ width) :
    fromBeBytes (toBeBytes width n) = n := by
  induction width generalizing n with
  | zero =>
    have hzero : n = 0 := by simpa using h
    rw [hzero]
    rfl
  | succ width ih =>
    have hhigh : n / 256 < 256 ^ width := by
      rw [pow_succ] at h
      exact Nat.div_lt_of_lt_mul (by rwa [Nat.mul_comm])
    have hlow : (UInt8.ofNat (n % 256)).toNat = n % 256 :=
      UInt8.toNat_ofNat_of_lt (Nat.mod_lt n (by omega))
    rw [toBeBytes, fromBeBytes_append_singleton, ih hhigh, hlow, Nat.div_add_mod]

/-- Bytes at the front of a stream are taken off it. -/
theorem readExact_append {n : ℕ} {bytes : List UInt8} (rest : List UInt8) (h : bytes.length = n) :
    readExact n (bytes ++ rest) = some (bytes, rest) := by
  rw [readExact, if_pos (by simp [h]), ← h, List.take_left, List.drop_left]

/-- What is taken off a stream does not depend on what follows later. -/
theorem readExact_mono {n : ℕ} {stream taken rest : List UInt8}
    (h : readExact n stream = some (taken, rest)) (more : List UInt8) :
    readExact n (stream ++ more) = some (taken, rest ++ more) := by
  unfold readExact at h ⊢
  split at h
  · rename_i hle
    cases h
    have hmore : n ≤ (stream ++ more).length := by
      rw [List.length_append]
      omega
    rw [if_pos hmore, List.take_append_of_le_length hle, List.drop_append_of_le_length hle]
  · cases h

/-! ## Reading a frame piece by piece -/

/-- A frame is as long as its first part says. -/
def IsFrame (width : ℕ) (frame : List UInt8) : Prop :=
  frame.length = width + fromBeBytes (frame.take width)

/-- How many bytes a reader may ask for next: the length is completed first, then the data. -/
def missing (width : ℕ) (got : List UInt8) : ℕ :=
  if got.length < width then width - got.length
  else width + fromBeBytes (got.take width) - got.length

variable {width : ℕ} {frame frame' got chunk rest : List UInt8}

/-- Data after their length are a frame. -/
theorem isFrame_append {data : List UInt8} (h : data.length < 256 ^ width) :
    IsFrame width (toBeBytes width data.length ++ data) := by
  have htake : (toBeBytes width data.length ++ data).take width = toBeBytes width data.length := by
    rw [List.take_append_of_le_length (length_toBeBytes _ _).ge]
    exact List.take_of_length_le (length_toBeBytes _ _).le
  rw [IsFrame, htake, fromBeBytes_toBeBytes h, List.length_append, length_toBeBytes]

/-- A reader that asks for no more than is missing has a frame when nothing is missing. -/
theorem isFrame_of_missing (hchunk : chunk.length ≤ missing width got)
    (h : missing width (got ++ chunk) = 0) (hgot : got.length < width ∨ 0 < missing width got) :
    IsFrame width (got ++ chunk) := by
  unfold IsFrame
  unfold missing at hchunk h hgot
  rw [List.length_append] at h ⊢
  split at hchunk
  · split at h <;> omega
  · rename_i hwidth
    rw [if_neg hwidth] at hgot
    rw [List.take_append_of_le_length (by omega)] at h ⊢
    split at h <;> omega

/-- A stream begins with one frame only. -/
theorem IsFrame.eq_of_isPrefix (h : IsFrame width frame) (h' : IsFrame width frame')
    (hframe : frame <+: rest) (hframe' : frame' <+: rest) : frame = frame' := by
  unfold IsFrame at h h'
  have htake : frame.take width = frame'.take width := by
    obtain ⟨after, rfl⟩ := hframe
    obtain ⟨after', heq⟩ := hframe'
    have hcut : (frame' ++ after').take width = (frame ++ after).take width := by rw [heq]
    rw [List.take_append_of_le_length (by omega), List.take_append_of_le_length (by omega)] at hcut
    exact hcut.symm
  have hlength : frame.length = frame'.length := by rw [h, h', htake]
  rw [List.prefix_iff_eq_take.mp hframe, List.prefix_iff_eq_take.mp hframe', hlength]

/-- What follows the frame at the front of a stream. -/
theorem IsFrame.append_prefix_append {xs ys : List UInt8} (h : IsFrame width frame)
    (h' : IsFrame width frame') (hfront : frame ++ xs <+: frame' ++ ys) :
    frame = frame' ∧ xs <+: ys := by
  have heq := h.eq_of_isPrefix h' ((List.prefix_append frame xs).trans hfront)
    (List.prefix_append frame' ys)
  subst heq
  exact ⟨rfl, (List.prefix_append_right_inj frame).mp hfront⟩

/-- A frame has at least its first part. -/
theorem IsFrame.ne_nil (h : IsFrame (width + 1) frame) : frame ≠ [] := by
  rintro rfl
  have hlength : ([] : List UInt8).length = width + 1 + _ := h
  rw [List.length_nil] at hlength
  omega

end Framing
