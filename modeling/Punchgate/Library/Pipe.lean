import Mathlib.Data.List.Infix
import Mathlib.Data.PNat.Defs

/-!
# Pipes and copying

A pipe keeps what was written to it and how much of it was read, so that what the reader has got is
always a prefix of what the writer has put in. A transfer copies one pipe to another in chunks of
any size, and shuts the target when the source is at its end. It waits while its buffer or its target
is full.
-/

/-- A first-in first-out stream with its history. -/
structure Pipe (α : Type*) where
  /-- Everything that was written. -/
  sent : List α
  /-- How much of it was read. -/
  taken : ℕ
  /-- The writer has shut the pipe. -/
  shut : Bool
  /-- Only what was written is read. -/
  taken_le : taken ≤ sent.length
  deriving DecidableEq

namespace Pipe

variable {α : Type*} {p p' : Pipe α} {n : ℕ} {xs : List α}

/-- A pipe that nothing was written to. -/
def new : Pipe α := ⟨[], 0, false, le_rfl⟩

/-- What was read. -/
def received (p : Pipe α) : List α := p.sent.take p.taken

/-- What can be read. -/
def unread (p : Pipe α) : List α := p.sent.drop p.taken

/-- Write to the end of a pipe. -/
def write (p : Pipe α) (xs : List α) : Pipe α where
  sent := p.sent ++ xs
  taken := p.taken
  shut := p.shut
  taken_le := by
    have hle := p.taken_le
    rw [List.length_append]
    omega

/-- Read from the front of a pipe. -/
def read (p : Pipe α) (n : ℕ) : Pipe α where
  sent := p.sent
  taken := min (p.taken + n) p.sent.length
  shut := p.shut
  taken_le := min_le_right _ _

/-- Shut a pipe. -/
def close (p : Pipe α) : Pipe α := { p with shut := true }

@[simp] theorem sent_new : (new : Pipe α).sent = [] := rfl
@[simp] theorem received_new : (new : Pipe α).received = [] := rfl
@[simp] theorem shut_new : (new : Pipe α).shut = false := rfl
@[simp] theorem sent_write : (p.write xs).sent = p.sent ++ xs := rfl
@[simp] theorem shut_write : (p.write xs).shut = p.shut := rfl
@[simp] theorem sent_read : (p.read n).sent = p.sent := rfl
@[simp] theorem shut_read : (p.read n).shut = p.shut := rfl
@[simp] theorem sent_close : p.close.sent = p.sent := rfl
@[simp] theorem received_close : p.close.received = p.received := rfl
@[simp] theorem unread_close : p.close.unread = p.unread := rfl
@[simp] theorem shut_close : p.close.shut = true := rfl

/-- What was read and what can be read is what was written. -/
theorem received_append_unread (p : Pipe α) : p.received ++ p.unread = p.sent :=
  List.take_append_drop p.taken p.sent

/-- The reader has got a prefix of what the writer has put in. -/
theorem received_isPrefix (p : Pipe α) : p.received <+: p.sent := List.take_prefix _ _

@[simp] theorem received_write : (p.write xs).received = p.received :=
  List.take_append_of_le_length p.taken_le

@[simp] theorem received_read : (p.read n).received = p.received ++ p.unread.take n := by
  have htake : (p.read n).received = p.sent.take (p.taken + n) := by
    change p.sent.take (min (p.taken + n) p.sent.length) = _
    rw [← List.take_take, List.take_length]
  rw [htake, List.take_add]
  rfl

@[simp] theorem unread_write : (p.write xs).unread = p.unread ++ xs :=
  List.drop_append_of_le_length p.taken_le

@[simp] theorem unread_read : (p.read n).unread = p.unread.drop n := by
  have hsplit := (p.read n).received_append_unread
  rw [received_read, sent_read, ← p.received_append_unread, List.append_assoc,
    List.append_cancel_left_eq] at hsplit
  have hdrop : p.unread.take n ++ (p.read n).unread = p.unread.take n ++ p.unread.drop n :=
    hsplit.trans (List.take_append_drop n p.unread).symm
  exact List.append_cancel_left hdrop

/-- A pipe at whose end the reader is was read as it was written. -/
theorem received_eq_sent (h : p.unread = []) : p.received = p.sent := by
  rw [← p.received_append_unread, h, List.append_nil]

/-! ## What the two ends do -/

/-- The writer acts on a pipe: what was read stays, and a shut pipe is left alone. -/
structure Writes (p p' : Pipe α) : Prop where
  /-- Nothing is read. -/
  received : p'.received = p.received
  /-- What was written stays. -/
  sent : p.sent <+: p'.sent
  /-- Nothing is written after shutting. -/
  shut : p.shut = true → p' = p

/-- The reader acts on a pipe: what was written stays, and so does what was read. -/
structure Reads (p p' : Pipe α) : Prop where
  /-- Nothing is written. -/
  sent : p'.sent = p.sent
  /-- The pipe is not shut. -/
  shut : p'.shut = p.shut
  /-- What was read stays. -/
  received : p.received <+: p'.received

theorem Writes.refl (p : Pipe α) : p.Writes p := ⟨rfl, List.prefix_rfl, fun _ => rfl⟩

theorem Reads.refl (p : Pipe α) : p.Reads p := ⟨rfl, rfl, List.prefix_rfl⟩

theorem Writes.trans {p'' : Pipe α} (h : p.Writes p') (h' : p'.Writes p'') : p.Writes p'' := by
  refine ⟨h'.received.trans h.received, h.sent.trans h'.sent, fun hshut => ?_⟩
  rw [h.shut hshut] at h'
  exact h'.shut hshut

theorem Reads.trans {p'' : Pipe α} (h : p.Reads p') (h' : p'.Reads p'') : p.Reads p'' :=
  ⟨h'.sent.trans h.sent, h'.shut.trans h.shut, h.received.trans h'.received⟩

theorem writes_write (h : p.shut = false) (xs : List α) : p.Writes (p.write xs) :=
  ⟨received_write, List.prefix_append _ _, fun hshut => by simp [h] at hshut⟩

theorem writes_close (p : Pipe α) : p.Writes p.close := by
  refine ⟨rfl, List.prefix_rfl, fun hshut => ?_⟩
  rw [close, ← hshut]

theorem reads_read (p : Pipe α) (n : ℕ) : p.Reads (p.read n) := by
  refine ⟨rfl, rfl, ?_⟩
  rw [received_read]
  exact List.prefix_append _ _

/-- What everything that is written to a pipe may come to be. -/
def MayHold (p : Pipe α) (xs : List α) : Prop := p.sent = xs ∨ p.shut = false ∧ p.sent <+: xs

theorem mayHold_sent (p : Pipe α) : p.MayHold p.sent := .inl rfl

/-- What was read is the first part of it. -/
theorem MayHold.received_isPrefix (h : p.MayHold xs) : p.received <+: xs := by
  rcases h with rfl | ⟨-, hsent⟩
  · exact p.received_isPrefix
  · exact p.received_isPrefix.trans hsent

/-- A reader at the end of a pipe that is shut has read all of it. -/
theorem MayHold.eq_received (h : p.MayHold xs) (hunread : p.unread = []) (hshut : p.shut = true) :
    xs = p.received := by
  rcases h with rfl | ⟨hopen, -⟩
  · exact (received_eq_sent hunread).symm
  · rw [hshut] at hopen
    cases hopen

/-- The writer only narrows it down. -/
theorem Writes.mayHold (h : p.Writes p') (hmay : p'.MayHold xs) : p.MayHold xs := by
  by_cases hshut : p.shut = true
  · rwa [h.shut hshut] at hmay
  · refine .inr ⟨by simpa using hshut, h.sent.trans ?_⟩
    rcases hmay with rfl | ⟨-, hsent⟩
    · exact List.prefix_rfl
    · exact hsent

/-- The reader leaves it alone. -/
theorem Reads.mayHold (h : p.Reads p') (hmay : p'.MayHold xs) : p.MayHold xs := by
  rwa [MayHold, h.sent, h.shut] at hmay

end Pipe

/-! ## Transfers -/

/-- How far one direction of a copy has come. -/
inductive Transfer (α : Type*)
  /-- The source may have more; what is buffered is still to be written. -/
  | running (buffer : List α)
  /-- The source is at its end; what is buffered is still to be written. -/
  | draining (buffer : List α)
  /-- Everything is written and the target is shut. -/
  | finished
  deriving DecidableEq

/-- One action of a copy. -/
inductive CopyAction
  /-- Read a chunk into the buffer. -/
  | read (n : ℕ)
  /-- Meet the end of the source. -/
  | eof
  /-- Write a chunk of the buffer. -/
  | write (n : ℕ)
  /-- Shut the target. -/
  | shutdown
  deriving DecidableEq

namespace Transfer

variable {α : Type*} {hold room : ℕ+} {t t' : Transfer α} {src dst src' dst' : Pipe α}
  {pre post : List α}

/-- What was read and not written yet. -/
def buffer : Transfer α → List α
  | running buffer => buffer
  | draining buffer => buffer
  | finished => []

/-- The end of the source was met. -/
def ended : Transfer α → Bool
  | running _ => false
  | draining _ => true
  | finished => true

/-- The effect of an action that is possible. The buffer holds so much, and so much that is not read
has room in the target. -/
def step (hold room : ℕ+) (t : Transfer α) (src dst : Pipe α) :
    CopyAction → Option (Transfer α × Pipe α × Pipe α)
  | .read n =>
    match t with
    | running buffer =>
      if 0 < n ∧ n ≤ src.unread.length ∧ buffer.length + n ≤ hold then
        some (running (buffer ++ src.unread.take n), src.read n, dst)
      else none
    | _ => none
  | .eof =>
    match t with
    | running buffer =>
      if src.unread.isEmpty ∧ src.shut then some (draining buffer, src, dst) else none
    | _ => none
  | .write n =>
    match t with
    | running buffer =>
      if 0 < n ∧ n ≤ buffer.length ∧ dst.unread.length + n ≤ room then
        some (running (buffer.drop n), src, dst.write (buffer.take n))
      else none
    | draining buffer =>
      if 0 < n ∧ n ≤ buffer.length ∧ dst.unread.length + n ≤ room then
        some (draining (buffer.drop n), src, dst.write (buffer.take n))
      else none
    | finished => none
  | .shutdown =>
    match t with
    | draining [] => some (finished, src, dst.close)
    | _ => none

/-- A transfer between two pipes is under way: what was read after some first part is what was
written after another, and what is buffered. -/
structure Copies (t : Transfer α) (pre post : List α) (src dst : Pipe α) : Prop where
  /-- What was read is written or buffered. -/
  copied : ∃ copied, src.received = pre ++ copied ++ t.buffer ∧ dst.sent = post ++ copied
  /-- The end is met where it is. -/
  ended : t.ended = true → src.shut = true ∧ src.unread = []
  /-- The target is shut by the transfer alone. -/
  shut : dst.shut = true ↔ t = finished

/-- A transfer begins with nothing read or written but the first parts. -/
theorem copies_new (hsrc : src.received = pre) (hdst : dst.sent = post) (hshut : dst.shut = false) :
    (running []).Copies pre post src dst := by
  refine ⟨⟨[], ?_, ?_⟩, fun h => (by cases h), by simp [hshut]⟩
  · simp [hsrc, buffer]
  · simp [hdst]

/-- The ways in which a transfer acts. -/
theorem step_cases {a : CopyAction} (h : t.step hold room src dst a = some (t', src', dst')) :
    (∃ b n, t = running b ∧ 0 < n ∧ n ≤ src.unread.length ∧
      t' = running (b ++ src.unread.take n) ∧ src' = src.read n ∧ dst' = dst) ∨
    (∃ b, t = running b ∧ src.unread = [] ∧ src.shut = true ∧ t' = draining b ∧ src' = src ∧
      dst' = dst) ∨
    (∃ n, 0 < n ∧ n ≤ t.buffer.length ∧ t'.buffer = t.buffer.drop n ∧ t'.ended = t.ended ∧
      t ≠ finished ∧ t' ≠ finished ∧ src' = src ∧ dst' = dst.write (t.buffer.take n)) ∨
    (t = draining [] ∧ t' = finished ∧ src' = src ∧ dst' = dst.close) := by
  cases a with
  | read n =>
    simp only [step] at h
    split at h
    · split at h
      · rename_i b hn
        cases h
        exact .inl ⟨b, n, rfl, hn.1, hn.2.1, rfl, rfl, rfl⟩
      · cases h
    · cases h
  | eof =>
    simp only [step] at h
    split at h
    · split at h
      · rename_i b hend
        cases h
        exact .inr (.inl ⟨b, rfl, List.isEmpty_iff.mp hend.1, hend.2, rfl, rfl, rfl⟩)
      · cases h
    · cases h
  | write n =>
    simp only [step] at h
    split at h
    · split at h
      · rename_i b hn
        cases h
        exact .inr (.inr (.inl ⟨n, hn.1, hn.2.1, rfl, rfl, by simp, by simp, rfl, rfl⟩))
      · cases h
    · split at h
      · rename_i b hn
        cases h
        exact .inr (.inr (.inl ⟨n, hn.1, hn.2.1, rfl, rfl, by simp, by simp, rfl, rfl⟩))
      · cases h
    · cases h
  | shutdown =>
    simp only [step] at h
    split at h
    · cases h
      exact .inr (.inr (.inr ⟨rfl, rfl, rfl, rfl⟩))
    · cases h

/-- What a phase of a transfer still asks for, apart from its bytes. -/
def rank : Transfer α → ℕ
  | running _ => 2
  | draining _ => 1
  | finished => 0

/-- **Accounts.** An action moves bytes from the source into the buffer, or from the buffer into the
target, or it brings the transfer nearer to its end. -/
theorem step_accounts {a : CopyAction} (h : t.step hold room src dst a = some (t', src', dst')) :
    ∃ read written done, src.unread.length = src'.unread.length + read ∧
      t'.buffer.length + written = t.buffer.length + read ∧
      dst'.unread.length = dst.unread.length + written ∧ t'.rank + done = t.rank ∧
      0 < read + written + done := by
  rcases step_cases h with ⟨b, n, rfl, hpos, hn, rfl, rfl, rfl⟩ | ⟨b, rfl, -, -, rfl, rfl, rfl⟩ |
    ⟨n, hpos, hn, hbuffer, hended, hne, hne', rfl, rfl⟩ | ⟨rfl, rfl, rfl, rfl⟩
  · refine ⟨n, 0, 0, ?_, ?_, rfl, rfl, by omega⟩
    · rw [Pipe.unread_read, List.length_drop]
      omega
    · simp only [buffer, List.length_append, List.length_take]
      omega
  · exact ⟨0, 0, 1, rfl, rfl, rfl, rfl, by omega⟩
  · refine ⟨0, n, 0, rfl, ?_, ?_, ?_, by omega⟩
    · rw [hbuffer, List.length_drop]
      omega
    · rw [Pipe.unread_write, List.length_append, List.length_take]
      omega
    · cases t with
      | running b =>
        cases t' with
        | running b' => rfl
        | draining b' => cases hended
        | finished => cases hended
      | draining b =>
        cases t' with
        | running b' => cases hended
        | draining b' => rfl
        | finished => exact absurd rfl hne'
      | finished => exact absurd rfl hne
  · exact ⟨0, 0, 1, rfl, rfl, rfl, rfl, by omega⟩

/-- A transfer does not shut its source. -/
theorem shut_step {a : CopyAction} (h : t.step hold room src dst a = some (t', src', dst')) :
    src'.shut = src.shut := by
  rcases step_cases h with ⟨b, n, -, -, -, -, rfl, -⟩ | ⟨b, -, -, -, -, rfl, -⟩ |
    ⟨n, -, -, -, -, -, -, rfl, -⟩ | ⟨-, -, rfl, -⟩
  · rfl
  · rfl
  · rfl
  · rfl

/-- A transfer that is not finished can act while its source has something or is shut, unless it
waits for the reader of its target. -/
theorem exists_step (hold room : ℕ+) (dst : Pipe α) (h : t ≠ finished)
    (hsrc : src.unread ≠ [] ∨ src.shut = true) :
    (∃ a, (t.step hold room src dst a).isSome = true) ∨ dst.unread ≠ [] := by
  by_cases hdst : dst.unread = []
  · left
    have hroom : dst.unread.length + 1 ≤ room := by
      rw [hdst]
      exact room.pos
    cases t with
    | running b =>
      cases b with
      | nil =>
        by_cases hunread : src.unread = []
        · have hshut := hsrc.resolve_left (not_not_intro hunread)
          exact ⟨.eof, by simp [step, hunread, hshut]⟩
        · have hpos : 1 ≤ src.unread.length := List.length_pos_of_ne_nil hunread
          have hhold : ([] : List α).length + 1 ≤ hold := hold.pos
          refine ⟨.read 1, ?_⟩
          rw [step, if_pos ⟨Nat.one_pos, hpos, hhold⟩]
          rfl
      | cons x xs =>
        have hpos : 1 ≤ (x :: xs).length := Nat.le_add_left _ _
        refine ⟨.write 1, ?_⟩
        rw [step, if_pos ⟨Nat.one_pos, hpos, hroom⟩]
        rfl
    | draining b =>
      cases b with
      | nil => exact ⟨.shutdown, rfl⟩
      | cons x xs =>
        have hpos : 1 ≤ (x :: xs).length := Nat.le_add_left _ _
        refine ⟨.write 1, ?_⟩
        rw [step, if_pos ⟨Nat.one_pos, hpos, hroom⟩]
        rfl
    | finished => exact absurd rfl h
  · exact .inr hdst

/-- **Step.** A transfer stays one, reads its source and writes its target. -/
theorem Copies.step {a : CopyAction} (h : t.Copies pre post src dst)
    (hstep : t.step hold room src dst a = some (t', src', dst')) :
    t'.Copies pre post src' dst' ∧ src.Reads src' ∧ dst.Writes dst' := by
  obtain ⟨⟨copied, hsrc, hdst⟩, hended, hshut⟩ := h
  rcases step_cases hstep with ⟨b, n, rfl, -, -, rfl, rfl, rfl⟩ | ⟨b, rfl, hunread, hend, rfl, rfl, rfl⟩ |
    ⟨n, -, -, hbuffer, hsame, hne, hne', rfl, rfl⟩ | ⟨rfl, rfl, rfl, rfl⟩
  · refine ⟨⟨⟨copied, ?_, hdst⟩, fun h => (by cases h), by simpa using hshut⟩,
      src.reads_read n, .refl _⟩
    rw [Pipe.received_read, hsrc]
    simp [buffer]
  · refine ⟨⟨⟨copied, hsrc, hdst⟩, fun _ => ⟨hend, hunread⟩, by simpa using hshut⟩,
      .refl _, .refl _⟩
  · have hopen : dst.shut = false := Bool.eq_false_iff.mpr fun htrue => hne (hshut.mp htrue)
    refine ⟨⟨⟨copied ++ t.buffer.take n, ?_, ?_⟩, fun h => hended (hsame ▸ h), ?_⟩, .refl _,
      Pipe.writes_write hopen _⟩
    · rw [hsrc, hbuffer]
      simp
    · simp [hdst]
    · simp [hopen, hne']
  · refine ⟨⟨⟨copied, hsrc, hdst⟩, fun _ => hended rfl, by simp⟩, .refl _, dst.writes_close⟩

/-- The writer of the source and the reader of the target leave a transfer under way. -/
theorem Copies.stable (h : t.Copies pre post src dst) (hsrc : src.Writes src')
    (hdst : dst.Reads dst') : t.Copies pre post src' dst' := by
  obtain ⟨⟨copied, hreceived, hsent⟩, hended, hshut⟩ := h
  refine ⟨⟨copied, ?_, ?_⟩, fun hend => ?_, ?_⟩
  · rw [hsrc.received, hreceived]
  · rw [hdst.sent, hsent]
  · obtain ⟨hshutdown, hunread⟩ := hended hend
    rw [hsrc.shut hshutdown]
    exact ⟨hshutdown, hunread⟩
  · rw [hdst.shut, hshut]

/-- What was written after the first part is what was read after the other first part, but for a
rest. -/
theorem Copies.isPrefix (h : t.Copies [] post src dst) : dst.sent <+: post ++ src.received := by
  obtain ⟨copied, hsrc, hdst⟩ := h.copied
  rw [hsrc, hdst, List.nil_append, ← List.append_assoc]
  exact List.prefix_append _ _

/-- The same for a transfer that strips the first part of its source. -/
theorem Copies.prefix_of_stripped (h : t.Copies pre [] src dst) :
    pre ++ dst.sent <+: src.received := by
  obtain ⟨copied, hsrc, hdst⟩ := h.copied
  rw [hsrc, hdst, List.nil_append]
  exact List.prefix_append _ _

/-- A finished transfer has copied its source to the end. -/
theorem Copies.finished (h : Transfer.finished.Copies pre post src dst) :
    ∃ copied, src.sent = pre ++ copied ∧ dst.sent = post ++ copied ∧ src.shut = true ∧
      src.unread = [] ∧ dst.shut = true := by
  obtain ⟨copied, hsrc, hdst⟩ := h.copied
  obtain ⟨hshut, hunread⟩ := h.ended rfl
  refine ⟨copied, ?_, hdst, hshut, hunread, h.shut.mpr rfl⟩
  rw [← Pipe.received_eq_sent hunread, hsrc]
  simp [buffer]

end Transfer
