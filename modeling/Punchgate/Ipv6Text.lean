import Punchgate.Types
import Punchgate.Library.Text

/-!
# Texts of IPv6 addresses

Which texts are IPv6 addresses is decided by the parser of the standard library. It reads up to
eight groups of hexadecimal digits with colons between them, the last two of which may be written
as an IPv4 address. If there are fewer, a double colon stands for groups of zeros. A reader takes
a value from the front of a text and returns the rest of it; one that fails takes nothing.
-/

namespace Punchgate

section Definitions

/-- `char::to_digit`. -/
def toDigit (radix : ℕ) (c : Char) : Option ℕ :=
  let digit :=
    if c.isDigit then c.toNat - '0'.toNat
    else if c.isLower then c.toNat - 'a'.toNat + 10
    else if c.isUpper then c.toNat - 'A'.toNat + 10
    else radix
  if digit < radix then some digit else none

/-- The digits at the front of a text. -/
def readDigits (radix : ℕ) : List Char → List ℕ × List Char
  | [] => ([], [])
  | c :: cs =>
    match toDigit radix c with
    | some digit =>
      let (digits, rest) := readDigits radix cs
      (digit :: digits, rest)
    | none => ([], c :: cs)

/-- `Parser::read_number`, for numbers below a bound. -/
def readNumber (radix maxDigits : ℕ) (allowZeroPrefix : Bool) (bound : ℕ) (s : List Char) :
    Option (ℕ × List Char) :=
  let (digits, rest) := readDigits radix s
  let value := digits.foldl (fun value digit => radix * value + digit) 0
  if digits = [] ∨ maxDigits < digits.length then none
  else if !allowZeroPrefix && s.head? = some '0' && 1 < digits.length then none
  else if value < bound then some (value, rest)
  else none

/-- `Parser::read_given_char`. -/
def readGivenChar (target : Char) : List Char → Option (List Char)
  | [] => none
  | c :: rest => if c = target then some rest else none

/-- `Parser::read_separator`: the first of several values has none before it. -/
def readSeparator {τ : Type} (sep : Char) (index : ℕ) (read : List Char → Option (τ × List Char))
    (s : List Char) : Option (τ × List Char) :=
  if 0 < index then (readGivenChar sep s).bind read else read s

/-- An octet in `Parser::read_ipv4_addr`. -/
def readOctet (s : List Char) : Option (UInt8 × List Char) :=
  (readNumber 10 3 false (2 ^ 8) s).map fun (value, rest) => (UInt8.ofNat value, rest)

/-- `Parser::read_ipv4_addr`. -/
def readIpv4Addr (s : List Char) : Option (Ipv4Addr × List Char) := do
  let (a, s) ← readSeparator '.' 0 readOctet s
  let (b, s) ← readSeparator '.' 1 readOctet s
  let (c, s) ← readSeparator '.' 2 readOctet s
  let (d, s) ← readSeparator '.' 3 readOctet s
  some (⟨a, b, c, d⟩, s)

/-- `read_groups`, from the group with the given index on, if so many groups are left: the groups,
and whether the last two of them were an IPv4 address. -/
def readGroups : ℕ → ℕ → List Char → List ℕ × Bool × List Char
  | _, 0, s => ([], false, s)
  | index, left + 1, s =>
    match if 0 < left then readSeparator ':' index readIpv4Addr s else none with
    | some (ip, rest) =>
      ([2 ^ 8 * ip.a.toNat + ip.b.toNat, 2 ^ 8 * ip.c.toNat + ip.d.toNat], true, rest)
    | none =>
      match readSeparator ':' index (readNumber 16 4 true (2 ^ 16)) s with
      | some (group, rest) =>
        let (groups, isIpv4, rest) := readGroups (index + 1) left rest
        (group :: groups, isIpv4, rest)
      | none => ([], false, s)

/-- `Ipv6Addr::from([u16; 8])`. -/
def Ipv6Addr.ofGroups (groups : List ℕ) : Ipv6Addr :=
  ⟨BitVec.ofNat 128 (groups.foldl (fun bits group => 2 ^ 16 * bits + group) 0)⟩

/-- `Parser::read_ipv6_addr`. -/
def readIpv6Addr (s : List Char) : Option (Ipv6Addr × List Char) :=
  let (head, headIpv4, rest) := readGroups 0 8 s
  if head.length = 8 then some (.ofGroups head, rest)
  -- an IPv4 address is not allowed before the double colon
  else if headIpv4 then none
  else do
    let rest ← readGivenChar ':' rest
    let rest ← readGivenChar ':' rest
    let (tail, _, rest) := readGroups 0 (8 - (head.length + 1)) rest
    let zeros := List.replicate (8 - head.length - tail.length) 0
    some (.ofGroups (head ++ zeros ++ tail), rest)

/-- `Ipv6Addr::from_str`: nothing may be left. -/
def Ipv6Addr.fromStr (s : List Char) : Option Ipv6Addr :=
  match readIpv6Addr s with
  | some (ip, []) => some ip
  | _ => none

end Definitions

example : Ipv6Addr.fromStr "::ffff:1.2.3.4".toList = some ⟨0xffff01020304⟩ := by decide

section Digits

variable {radix radix' maxDigits bound value : ℕ} {allowZeroPrefix : Bool} {c : Char}
  {s rest : List Char}

/-- A digit in a radix is a digit in every larger one. -/
theorem isSome_toDigit_of_le (hle : radix ≤ radix') (h : (toDigit radix c).isSome) :
    (toDigit radix' c).isSome := by
  unfold toDigit at h ⊢
  split_ifs at h ⊢ <;> simp_all <;> omega

/-- Digits are read from the front of a text, one for every character. -/
theorem readDigits_text (radix : ℕ) (s : List Char) :
    ∃ text, s = text ++ (readDigits radix s).2 ∧ text.length = (readDigits radix s).1.length ∧
      ∀ c ∈ text, (toDigit radix c).isSome := by
  induction s with
  | nil => exact ⟨[], rfl, rfl, by simp⟩
  | cons c cs ih =>
    rw [readDigits]
    cases hdigit : toDigit radix c with
    | none => exact ⟨[], rfl, rfl, by simp⟩
    | some digit =>
      obtain ⟨text, hcs, hlen, hall⟩ := ih
      refine ⟨c :: text, ?_, ?_, ?_⟩
      · exact congrArg (c :: ·) hcs
      · simp [hlen]
      · simpa [hdigit] using hall

/-- A number is read from a text of digits, no more of them than allowed. -/
theorem readNumber_text
    (h : readNumber radix maxDigits allowZeroPrefix bound s = some (value, rest)) :
    ∃ text, s = text ++ rest ∧ text ≠ [] ∧ text.length ≤ maxDigits ∧
      ∀ c ∈ text, (toDigit radix c).isSome := by
  obtain ⟨text, hs, hlen, hall⟩ := readDigits_text radix s
  unfold readNumber at h
  dsimp only at h
  split_ifs at h with hcount
  rw [not_or, not_lt] at hcount
  cases h
  refine ⟨text, hs, fun hnil => hcount.1 ?_, hlen ▸ hcount.2, hall⟩
  rw [hnil] at hlen
  exact List.length_eq_zero_iff.mp hlen.symm

end Digits

section Grammar

/-- A character is read if it comes first. -/
theorem readGivenChar_eq_some_iff {target : Char} {s rest : List Char} :
    readGivenChar target s = some rest ↔ s = target :: rest := by
  cases s with
  | nil => simp [readGivenChar]
  | cons c cs => simp [readGivenChar]

/-- What comes before the value with an index, when values are separated. -/
def sepBefore (sep : Char) (index : ℕ) : List Char := if 0 < index then [sep] else []

/-- A separated value is read after its separator. -/
theorem readSeparator_text {τ : Type} {sep : Char} {index : ℕ}
    {read : List Char → Option (τ × List Char)} {s : List Char} {r : τ × List Char}
    (h : readSeparator sep index read s = some r) :
    ∃ t, s = sepBefore sep index ++ t ∧ read t = some r := by
  unfold readSeparator at h
  unfold sepBefore
  split
  · rename_i hindex
    rw [if_pos hindex] at h
    obtain ⟨t, hgiven, hread⟩ := Option.bind_eq_some_iff.mp h
    exact ⟨t, readGivenChar_eq_some_iff.mp hgiven, hread⟩
  · rename_i hindex
    rw [if_neg hindex] at h
    exact ⟨s, rfl, h⟩

/-- A hexadecimal digit, or a dot between octets. -/
def IsGroupChar (c : Char) : Prop := (toDigit 16 c).isSome ∨ c = '.'

/-- What a group or an IPv4 address is written like. -/
structure IsGroupText (text : List Char) : Prop where
  ne_nil : text ≠ []
  chars : ∀ c ∈ text, IsGroupChar c
  tail : Text.ShortTail (fun c => c.isDigit) 4 text

/-- Texts of so many groups, the first of which has the given index. -/
inductive GroupsText : ℕ → ℕ → List Char → Prop
  | none (index : ℕ) : GroupsText index 0 []
  | ipv4 (index : ℕ) {text : List Char} (htext : IsGroupText text) :
    GroupsText index 2 (sepBefore ':' index ++ text)
  | group (index : ℕ) {count : ℕ} {text more : List Char} (htext : IsGroupText text)
    (hmore : GroupsText (index + 1) count more) :
    GroupsText index (count + 1) (sepBefore ':' index ++ text ++ more)

end Grammar

section Reading

variable {s rest : List Char}

/-- A hexadecimal group is read from a text of one. -/
theorem readGroup_text {group : ℕ} (h : readNumber 16 4 true (2 ^ 16) s = some (group, rest)) :
    ∃ text, s = text ++ rest ∧ IsGroupText text := by
  obtain ⟨text, hs, hne, hlen, hall⟩ := readNumber_text h
  exact ⟨text, hs, hne, fun c hc => .inl (hall c hc), Text.ShortTail.of_length_le hlen⟩

/-- An octet is read from a text of at most three digits, after its dot. -/
theorem readOctet_text {index : ℕ} {octet : UInt8}
    (h : readSeparator '.' index readOctet s = some (octet, rest)) :
    ∃ text, s = sepBefore '.' index ++ text ++ rest ∧ text ≠ [] ∧ text.length ≤ 4 ∧
      ∀ c ∈ text, IsGroupChar c := by
  obtain ⟨t, hs, hread⟩ := readSeparator_text h
  obtain ⟨⟨value, rest'⟩, hnumber, heq⟩ := Option.map_eq_some_iff.mp hread
  cases heq
  obtain ⟨text, rfl, hne, hlen, hall⟩ := readNumber_text hnumber
  refine ⟨text, by rw [hs, List.append_assoc], hne, by omega, fun c hc => .inl ?_⟩
  exact isSome_toDigit_of_le (by omega) (hall c hc)

/-- An IPv4 address is read from a text of one. -/
theorem readIpv4Addr_text {ip : Ipv4Addr} (h : readIpv4Addr s = some (ip, rest)) :
    ∃ text, s = text ++ rest ∧ IsGroupText text := by
  unfold readIpv4Addr at h
  obtain ⟨⟨a, s₁⟩, ha, h⟩ := Option.bind_eq_some_iff.mp h
  obtain ⟨⟨b, s₂⟩, hb, h⟩ := Option.bind_eq_some_iff.mp h
  obtain ⟨⟨c, s₃⟩, hc, h⟩ := Option.bind_eq_some_iff.mp h
  obtain ⟨⟨d, s₄⟩, hd, h⟩ := Option.bind_eq_some_iff.mp h
  cases h
  obtain ⟨p, rfl, hne, -, hp⟩ := readOctet_text ha
  obtain ⟨q, rfl, -, -, hq⟩ := readOctet_text hb
  obtain ⟨r, rfl, -, -, hr⟩ := readOctet_text hc
  obtain ⟨t, rfl, -, hlen, ht⟩ := readOctet_text hd
  have hdot : IsGroupChar '.' := .inr rfl
  refine ⟨p ++ '.' :: q ++ '.' :: r ++ '.' :: t, by simp [sepBefore], ⟨by simp, ?_, ?_⟩⟩
  · intro x hx
    simp only [List.mem_append, List.mem_cons] at hx
    rcases hx with ((hx | rfl | hx) | rfl | hx) | rfl | hx
    exacts [hp x hx, hdot, hq x hx, hdot, hr x hx, hdot, ht x hx]
  · exact (Text.ShortTail.of_length_le hlen).append_cons (by decide)

/-- Groups are read from a text of them. -/
theorem readGroups_text (index left : ℕ) (s : List Char) :
    ∃ text, s = text ++ (readGroups index left s).2.2 ∧
      GroupsText index (readGroups index left s).1.length text := by
  induction left generalizing index s with
  | zero => exact ⟨[], rfl, .none index⟩
  | succ left ih =>
    rw [readGroups]
    split
    · rename_i ip rest hread
      split at hread
      · obtain ⟨t, rfl, hip⟩ := readSeparator_text hread
        obtain ⟨text, rfl, htext⟩ := readIpv4Addr_text hip
        exact ⟨_, (List.append_assoc _ _ _).symm, .ipv4 index htext⟩
      · cases hread
    · split
      · rename_i group rest hread
        obtain ⟨t, rfl, hgroup⟩ := readSeparator_text hread
        obtain ⟨text, rfl, htext⟩ := readGroup_text hgroup
        obtain ⟨more, hrest, hmore⟩ := ih (index + 1) rest
        refine ⟨_, ?_, .group index htext hmore⟩
        simpa using hrest
      · exact ⟨[], rfl, .none index⟩

/-- An IPv6 address is read from a text of eight groups, or of fewer with a double colon between
them. -/
theorem Ipv6Addr.text_of_fromStr {ip : Ipv6Addr} (h : fromStr s = some ip) :
    GroupsText 0 8 s ∨ ∃ front back m n, s = front ++ ':' :: ':' :: back ∧
      GroupsText 0 m front ∧ GroupsText 0 n back := by
  unfold fromStr at h
  split at h
  · rename_i ip' hread
    obtain ⟨front, hs, hfront⟩ := readGroups_text 0 8 s
    unfold readIpv6Addr at hread
    dsimp only at hread
    split_ifs at hread with hlen hipv4
    · simp only [Option.some.injEq, Prod.mk.injEq] at hread
      rw [hread.2, List.append_nil] at hs
      rw [hlen] at hfront
      exact .inl (hs ▸ hfront)
    · obtain ⟨rest₁, hgiven₁, hread⟩ := Option.bind_eq_some_iff.mp hread
      obtain ⟨rest₂, hgiven₂, hread⟩ := Option.bind_eq_some_iff.mp hread
      obtain ⟨back, hback, hgroups⟩ :=
        readGroups_text 0 (8 - ((readGroups 0 8 s).1.length + 1)) rest₂
      simp only [Option.some.injEq, Prod.mk.injEq] at hread
      rw [hread.2, List.append_nil] at hback
      rw [readGivenChar_eq_some_iff.mp hgiven₁, readGivenChar_eq_some_iff.mp hgiven₂, hback] at hs
      exact .inr ⟨front, back, _, _, hs, hfront, hgroups⟩
  · cases h

end Reading

section Shape

variable {index count : ℕ} {s text : List Char} {ip : Ipv6Addr}

/-- A group ends in at most four decimal digits, with or without a colon before it. -/
theorem IsGroupText.tail_sepBefore (h : IsGroupText text) (index : ℕ) :
    Text.ShortTail (fun c => c.isDigit) 4 (sepBefore ':' index ++ text) := by
  unfold sepBefore
  split
  · exact h.tail.cons (by decide)
  · exact h.tail

/-- Later groups begin with a colon. -/
theorem GroupsText.exists_cons (h : GroupsText (index + 1) (count + 1) text) :
    ∃ more, text = ':' :: more := by
  cases h with
  | ipv4 _ htext => exact ⟨_, rfl⟩
  | group _ htext hmore => exact ⟨_, rfl⟩

/-- Groups have no other characters than those of a group, and colons. -/
theorem GroupsText.chars (h : GroupsText index count text) :
    ∀ c ∈ text, IsGroupChar c ∨ c = ':' := by
  have hsep : ∀ index, ∀ c ∈ sepBefore ':' index, c = ':' := by
    intro index c hc
    unfold sepBefore at hc
    split at hc <;> simp_all
  induction h with
  | none index => simp
  | ipv4 index htext =>
    intro c hc
    rcases List.mem_append.mp hc with hc | hc
    · exact .inr (hsep index c hc)
    · exact .inl (htext.chars c hc)
  | group index htext hmore ih =>
    intro c hc
    rw [List.append_assoc, List.mem_append, List.mem_append] at hc
    rcases hc with hc | hc | hc
    · exact .inr (hsep index c hc)
    · exact .inl (htext.chars c hc)
    · exact ih c hc

/-- Groups end in at most four decimal digits. -/
theorem GroupsText.tail (h : GroupsText index count text) :
    Text.ShortTail (fun c => c.isDigit) 4 text := by
  induction h with
  | none index => exact Text.ShortTail.of_length_le (Nat.zero_le 4)
  | ipv4 index htext => exact htext.tail_sepBefore index
  | @group index count text more htext hmore ih =>
    cases count with
    | zero =>
      cases hmore with
      | none => simpa using htext.tail_sepBefore index
    | succ count =>
      obtain ⟨more', rfl⟩ := hmore.exists_cons
      exact (ih.of_suffix (List.suffix_cons ':' more')).append_cons (by decide)

/-- An IPv6 address has a colon after its first character. -/
theorem Ipv6Addr.colon_of_fromStr (h : fromStr s = some ip) : ∃ c t, s = c :: t ∧ ':' ∈ t := by
  rcases text_of_fromStr h with hgroups | ⟨front, back, m, n, rfl, -, -⟩
  · cases hgroups with
    | group _ htext hmore =>
      obtain ⟨more, rfl⟩ := hmore.exists_cons
      obtain ⟨c, t, rfl⟩ := List.exists_cons_of_ne_nil htext.ne_nil
      exact ⟨c, t ++ ':' :: more, rfl, by simp⟩
  · cases front with
    | nil => exact ⟨':', ':' :: back, rfl, List.mem_cons_self⟩
    | cons c t => exact ⟨c, t ++ ':' :: ':' :: back, rfl, by simp⟩

/-- An IPv6 address has no other characters than hexadecimal digits, dots and colons. -/
theorem Ipv6Addr.chars_of_fromStr (h : fromStr s = some ip) :
    ∀ c ∈ s, IsGroupChar c ∨ c = ':' := by
  rcases text_of_fromStr h with hgroups | ⟨front, back, m, n, rfl, hfront, hback⟩
  · exact hgroups.chars
  · intro c hc
    simp only [List.mem_append, List.mem_cons] at hc
    rcases hc with hc | hc | hc | hc
    exacts [hfront.chars c hc, .inr hc, .inr hc, hback.chars c hc]

/-- An IPv6 address ends in at most four decimal digits. -/
theorem Ipv6Addr.tail_of_fromStr (h : fromStr s = some ip) :
    Text.ShortTail (fun c => c.isDigit) 4 s := by
  rcases text_of_fromStr h with hgroups | ⟨front, back, m, n, rfl, -, hback⟩
  · exact hgroups.tail
  · exact (hback.tail.cons (by decide)).append_cons (by decide)

end Shape

end Punchgate
