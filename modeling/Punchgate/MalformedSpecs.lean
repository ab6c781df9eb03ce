import Punchgate.Specs
import Punchgate.Ipv6Text

/-!
# Malformed specs

An IPv6 address needs brackets before a port, as its groups have colons between them. Without
brackets the parser cuts an address at its last colon and takes what comes before it for the host,
if only as a domain. So an IPv6 address without a port is an address with one, if its last group
can be read as a number of decimal digits. Service names are checked in two of the three specs.
-/

namespace Punchgate

section Definitions

/-- A textual IPv6 address, without brackets and port. -/
def BareIpv6 (s : List Char) : Prop := ∃ ip, Ipv6Addr.fromStr s = some ip

instance : DecidablePred BareIpv6 := fun s =>
  decidable_of_iff (Ipv6Addr.fromStr s).isSome Option.isSome_iff_exists

/-- The last group between colons is written in decimal digits. -/
def EndsInDecimalGroup (s : List Char) : Prop :=
  ∃ front last, s = front ++ ':' :: last ∧ last ≠ [] ∧ ∀ c ∈ last, c.isDigit

/-- An IPv6 address without a port, the last group of which can be taken for one. -/
def MisreadIpv6 (s : List Char) : Prop := BareIpv6 s ∧ EndsInDecimalGroup s

/-- A text with a host and the number of a port where the text of an address has them. -/
def HasHostAndPort (s : List Char) : Prop :=
  ∃ host portStr port, ServiceAddr.split s = some (host, portStr) ∧ host ≠ [] ∧
    parseU16 portStr = .ok port

end Definitions

section Ports

variable {value : ℕ} {cs s : List Char} {port : UInt16}

/-- Digits make a number of no more digits. -/
theorem ofDigitChars_lt (hdigits : ∀ c ∈ cs, c.isDigit) :
    Nat.ofDigitChars 10 cs value < 10 ^ cs.length * (value + 1) := by
  induction cs generalizing value with
  | nil => simp
  | cons c cs ih =>
    have hc := Char.isDigit_iff_toNat.mp (hdigits c List.mem_cons_self)
    have hdigit : c.toNat - '0'.toNat < 10 := by
      have hnine : '9'.toNat = '0'.toNat + 9 := rfl
      omega
    rw [Nat.ofDigitChars_cons, List.length_cons, pow_succ, Nat.mul_assoc]
    refine lt_of_lt_of_le (ih fun d hd => hdigits d (List.mem_cons_of_mem c hd)) ?_
    exact Nat.mul_le_mul_left _ (by omega)

/-- Up to four digits are a port. -/
theorem exists_parseU16 (hne : s ≠ []) (hdigits : ∀ c ∈ s, c.isDigit) (hlen : s.length ≤ 4) :
    ∃ port, parseU16 s = .ok port := by
  have hsign : ∀ c, ¬c.isDigit → s ≠ [c] ∧ s.head? ≠ some c := by
    intro c hc
    refine ⟨fun heq => hc (hdigits c (by simp [heq])), fun heq => hc (hdigits c ?_)⟩
    exact List.mem_of_mem_head? heq
  have hplus := hsign '+' (by decide)
  have hminus := hsign '-' (by decide)
  have hsmall : Nat.ofDigitChars 10 s 0 < 2 ^ 16 := by
    have hlt : Nat.ofDigitChars 10 s 0 < 10 ^ s.length * (0 + 1) := ofDigitChars_lt hdigits
    have hpow : 10 ^ s.length ≤ 10 ^ 4 := Nat.pow_le_pow_right (by omega) hlen
    omega
  rw [parseU16, if_neg hne, if_neg (by simp [hplus.1, hminus.1]), if_neg hplus.2]
  exact ⟨_, parseU16Digits_eq_ok hdigits hsmall⟩

/-- What is read as a port after other digits has digits only. -/
theorem isDigit_of_parseU16Digits (h : parseU16Digits value cs = .ok port) :
    ∀ c ∈ cs, c.isDigit := by
  induction cs generalizing value with
  | nil => simp
  | cons c cs ih =>
    unfold parseU16Digits at h
    dsimp only at h
    split_ifs at h with hc hlt
    intro d hd
    rcases List.mem_cons.mp hd with rfl | hd
    · exact hc
    · exact ih h d hd

/-- What is read as a port, without a sign, has digits, and digits only. -/
theorem isDigit_of_parseU16 (h : parseU16 s = .ok port) (hsign : '+' ∉ s) :
    s ≠ [] ∧ ∀ c ∈ s, c.isDigit := by
  unfold parseU16 at h
  have hhead : s.head? ≠ some '+' := fun heq => hsign (List.mem_of_mem_head? heq)
  rw [if_neg hhead] at h
  split_ifs at h with hnil _
  exact ⟨hnil, isDigit_of_parseU16Digits h⟩

end Ports

section Bare

variable {forms : TextForms} {s : List Char}

/-- A host that is not empty is parsed, if only as a domain. -/
theorem HostAddr.exists_fromStr (forms : TextForms) (hne : s ≠ []) :
    ∃ host, fromStr forms s = .ok host := by
  rw [fromStr, if_neg hne]
  split
  · exact ⟨_, rfl⟩
  · split
    · exact ⟨_, rfl⟩
    · exact ⟨_, rfl⟩

/-- An address is parsed if it has a host and a port. -/
theorem ServiceAddr.exists_fromStr_iff :
    (∃ addr, fromStr forms s = .ok addr) ↔ HasHostAndPort s := by
  constructor
  · rintro ⟨addr, haddr⟩
    obtain ⟨host, portStr, hsplit, hport, hhost⟩ := fromStr_eq_ok_iff.mp haddr
    refine ⟨host, portStr, addr.port, hsplit, ?_, hport⟩
    rintro rfl
    cases hhost
  · rintro ⟨host, portStr, port, hsplit, hne, hport⟩
    obtain ⟨hostAddr, hhost⟩ := HostAddr.exists_fromStr forms hne
    exact ⟨⟨hostAddr, port⟩, fromStr_eq_ok_iff.mpr ⟨host, portStr, hsplit, hport, hhost⟩⟩

/-- An IPv6 address is cut at its last colon, which has something before it. -/
theorem BareIpv6.split (h : BareIpv6 s) : ∃ front last, ServiceAddr.split s = some (front, last) ∧
    front ≠ [] ∧ s = front ++ ':' :: last ∧ ':' ∉ last := by
  obtain ⟨ip, hip⟩ := h
  obtain ⟨c, t, rfl, hcolon⟩ := Ipv6Addr.colon_of_fromStr hip
  have hbracket : ¬['['] <+: c :: t := fun hinitial => by
    have hchar := Ipv6Addr.chars_of_fromStr hip '[' (hinitial.subset List.mem_cons_self)
    revert hchar
    unfold IsGroupChar
    decide
  obtain ⟨front, last, hsplit⟩ := Text.exists_rsplitOnce (List.mem_cons_of_mem c hcolon)
  obtain ⟨hs, hlast⟩ := Text.rsplitOnce_singleton_iff.mp hsplit
  refine ⟨front, last, by rw [ServiceAddr.split_of_not_bracket hbracket, hsplit], ?_, hs, hlast⟩
  rintro rfl
  exact hlast ((List.cons.inj hs).2 ▸ hcolon)

/-- An IPv6 address without a port has a host and a port if its last group can be taken for one:
no group has more than four digits. -/
theorem BareIpv6.hasHostAndPort_iff (h : BareIpv6 s) :
    HasHostAndPort s ↔ EndsInDecimalGroup s := by
  obtain ⟨front, last, hsplit, hne, hs, hlast⟩ := h.split
  obtain ⟨ip, hip⟩ := h
  constructor
  · rintro ⟨host, portStr, port, hsplit', -, hport⟩
    rw [hsplit] at hsplit'
    cases hsplit'
    have hsign : '+' ∉ last := fun hmem => by
      have hchar := Ipv6Addr.chars_of_fromStr hip '+' (by simp [hs, hmem])
      revert hchar
      unfold IsGroupChar
      decide
    exact ⟨front, last, hs, isDigit_of_parseU16 hport hsign⟩
  · rintro ⟨front', last', hs', hne', hdigits⟩
    have hlast' : ':' ∉ last' := fun hmem => by simpa using hdigits ':' hmem
    have hlen := Ipv6Addr.tail_of_fromStr hip last' (hs' ▸ ⟨front' ++ [':'], by simp⟩) hdigits
    obtain ⟨port, hport⟩ := exists_parseU16 hne' hdigits hlen
    have hcut := Text.rsplitOnce_singleton_iff.mpr ⟨hs', hlast'⟩
    rw [Text.rsplitOnce_singleton_iff.mpr ⟨hs, hlast⟩] at hcut
    cases hcut
    exact ⟨front, last, port, hsplit, hne, hport⟩

end Bare

section Specs

variable {forms : TextForms} {s : List Char}

/-- A name that is not empty and an address are rejected if the address is no IPv6 address whose
last group can be taken for a port. -/
theorem parseNamedAddr_wellFormed_iff {ε : Type}
    (split : List Char → Option (List Char × List Char)) (missingSeparator emptyName : ε)
    (invalidAddr : ServiceAddrParseError → ε) :
    (∀ name addr before addrStr,
      parseNamedAddr forms split missingSeparator emptyName invalidAddr s = .ok (name, addr) →
      split s = some (before, addrStr) → name.name ≠ "" ∧ ¬BareIpv6 addrStr) ↔
    ∀ before addrStr, split s = some (before, addrStr) → before ≠ [] → ¬MisreadIpv6 addrStr := by
  constructor
  · rintro h before addrStr hsplit hne ⟨hbare, hends⟩
    obtain ⟨addr, haddr⟩ :=
      ServiceAddr.exists_fromStr_iff.mpr (hbare.hasHostAndPort_iff.mpr hends)
    refine (h ⟨String.ofList before⟩ addr before addrStr ?_ hsplit).2 hbare
    rw [parseNamedAddr_eq_ok_iff]
    exact ⟨addrStr, by simpa using hsplit, by simpa using hne, haddr⟩
  · intro h name addr before addrStr hparse hsplit
    obtain ⟨addrStr', hsplit', hne, haddr⟩ := parseNamedAddr_eq_ok_iff.mp hparse
    rw [hsplit] at hsplit'
    cases hsplit'
    refine ⟨fun hname => hne (String.toList_eq_nil_iff.mpr hname), fun hbare => ?_⟩
    have hends := hbare.hasHostAndPort_iff.mp (ServiceAddr.exists_fromStr_iff.mp ⟨addr, haddr⟩)
    exact h _ _ hsplit hne ⟨hbare, hends⟩

/-- An exposed service is malformed only with an IPv6 address whose last group can be taken for a
port. -/
theorem ExposedService.wellFormed_iff :
    (∀ spec before addrStr, fromStr forms s = .ok spec →
      Text.splitOnce ['='] s = some (before, addrStr) →
      spec.name.name ≠ "" ∧ ¬BareIpv6 addrStr) ↔
    ∀ before addrStr, Text.splitOnce ['='] s = some (before, addrStr) → before ≠ [] →
      ¬MisreadIpv6 addrStr := by
  rw [← parseNamedAddr_wellFormed_iff (Text.splitOnce ['=']) ExposeParseError.missingSeparator
    .emptyName .invalidAddr]
  refine ⟨fun h name addr before addrStr hparse => ?_, fun h spec before addrStr hparse => ?_⟩
  · exact h ⟨name, addr⟩ before addrStr (fromStr_eq_ok_iff.mpr hparse)
  · exact h spec.name spec.localAddr before addrStr (fromStr_eq_ok_iff.mp hparse)

/-- A tunnel by name is malformed only with an IPv6 address whose last group can be taken for a
port. -/
theorem TunnelByNameSpec.wellFormed_iff :
    (∀ spec before addrStr, fromStr forms s = .ok spec →
      Text.rsplitOnce ['@'] s = some (before, addrStr) →
      spec.serviceName.name ≠ "" ∧ ¬BareIpv6 addrStr) ↔
    ∀ before addrStr, Text.rsplitOnce ['@'] s = some (before, addrStr) → before ≠ [] →
      ¬MisreadIpv6 addrStr := by
  rw [← parseNamedAddr_wellFormed_iff (Text.rsplitOnce ['@'])
    TunnelByNameParseError.missingSeparator .emptyName .invalidAddr]
  refine ⟨fun h name addr before addrStr hparse => ?_, fun h spec before addrStr hparse => ?_⟩
  · exact h ⟨name, addr⟩ before addrStr (fromStr_eq_ok_iff.mpr hparse)
  · exact h spec.serviceName spec.bindAddr before addrStr (fromStr_eq_ok_iff.mp hparse)

/-- A tunnel is malformed with an IPv6 address whose last group can be taken for a port, and
without a service name. -/
theorem TunnelSpec.wellFormed_iff :
    (∀ spec before addrStr, fromStr forms s = .ok spec →
      Text.rsplitOnce ['@'] s = some (before, addrStr) →
      spec.serviceName.name ≠ "" ∧ ¬BareIpv6 addrStr) ↔
    ∀ peerStr name addrStr, s = peerStr ++ ':' :: (name ++ '@' :: addrStr) → ':' ∉ peerStr →
      '@' ∉ addrStr → (∃ peer, forms.parsePeerId peerStr = .ok peer) →
      (name = [] → ¬HasHostAndPort addrStr) ∧ ¬MisreadIpv6 addrStr := by
  constructor
  · rintro h peerStr name addrStr hs hcolon hat ⟨peer, hpeer⟩
    have hsplit : Text.rsplitOnce ['@'] s = some (peerStr ++ ':' :: name, addrStr) :=
      Text.rsplitOnce_singleton_iff.mpr ⟨by simpa using hs, hat⟩
    have hspec : ∀ addr, ServiceAddr.fromStr forms addrStr = .ok addr →
        name ≠ [] ∧ ¬BareIpv6 addrStr := by
      intro addr haddr
      have hparse : fromStr forms s = .ok ⟨peer, ⟨String.ofList name⟩, addr⟩ :=
        fromStr_eq_ok_iff.mpr ⟨peerStr, addrStr, by simpa using ⟨hs, hcolon, hat⟩, hpeer, haddr⟩
      simpa using h _ _ _ hparse hsplit
    refine ⟨fun hname hport => ?_, fun ⟨hbare, hends⟩ => ?_⟩
    · obtain ⟨addr, haddr⟩ := ServiceAddr.exists_fromStr_iff.mpr hport
      exact (hspec addr haddr).1 hname
    · obtain ⟨addr, haddr⟩ :=
        ServiceAddr.exists_fromStr_iff.mpr (hbare.hasHostAndPort_iff.mpr hends)
      exact (hspec addr haddr).2 hbare
  · intro h spec before addrStr hparse hsplit
    obtain ⟨peerStr, addrStr', ⟨hs, hcolon, hat⟩, hpeer, haddr⟩ := fromStr_eq_ok_iff.mp hparse
    have hcut : Text.rsplitOnce ['@'] s =
        some (peerStr ++ ':' :: spec.serviceName.name.toList, addrStr') :=
      Text.rsplitOnce_singleton_iff.mpr ⟨by simpa using hs, hat⟩
    rw [hsplit] at hcut
    cases hcut
    have hport := ServiceAddr.exists_fromStr_iff.mp ⟨_, haddr⟩
    obtain ⟨hempty, hmisread⟩ := h _ _ _ hs hcolon hat ⟨_, hpeer⟩
    refine ⟨fun hname => ?_, fun hbare => ?_⟩
    · exact hempty (String.toList_eq_nil_iff.mpr hname) hport
    · exact hmisread ⟨hbare, hbare.hasHostAndPort_iff.mp hport⟩

/-- Malformed texts are rejected exactly if they have none of two shapes: an IPv6 address without a
port whose last group can be taken for one, and, in a tunnel, an empty service name. -/
theorem malformed_rejected_iff (forms : TextForms) (s : List Char) :
    ((BareIpv6 s → ∀ addr, ServiceAddr.fromStr forms s ≠ .ok addr) ↔ ¬MisreadIpv6 s) ∧
    ((∀ spec before addrStr, ExposedService.fromStr forms s = .ok spec →
        Text.splitOnce ['='] s = some (before, addrStr) →
        spec.name.name ≠ "" ∧ ¬BareIpv6 addrStr) ↔
      ∀ before addrStr, Text.splitOnce ['='] s = some (before, addrStr) → before ≠ [] →
        ¬MisreadIpv6 addrStr) ∧
    ((∀ spec before addrStr, TunnelByNameSpec.fromStr forms s = .ok spec →
        Text.rsplitOnce ['@'] s = some (before, addrStr) →
        spec.serviceName.name ≠ "" ∧ ¬BareIpv6 addrStr) ↔
      ∀ before addrStr, Text.rsplitOnce ['@'] s = some (before, addrStr) → before ≠ [] →
        ¬MisreadIpv6 addrStr) ∧
    ((∀ spec before addrStr, TunnelSpec.fromStr forms s = .ok spec →
        Text.rsplitOnce ['@'] s = some (before, addrStr) →
        spec.serviceName.name ≠ "" ∧ ¬BareIpv6 addrStr) ↔
      ∀ peerStr name addrStr, s = peerStr ++ ':' :: (name ++ '@' :: addrStr) → ':' ∉ peerStr →
        '@' ∉ addrStr → (∃ peer, forms.parsePeerId peerStr = .ok peer) →
        (name = [] → ¬HasHostAndPort addrStr) ∧ ¬MisreadIpv6 addrStr) := by
  refine ⟨?_, ExposedService.wellFormed_iff, TunnelByNameSpec.wellFormed_iff,
    TunnelSpec.wellFormed_iff⟩
  constructor
  · rintro h ⟨hbare, hends⟩
    obtain ⟨addr, haddr⟩ :=
      ServiceAddr.exists_fromStr_iff.mpr (hbare.hasHostAndPort_iff.mpr hends)
    exact h hbare addr haddr
  · intro h hbare addr haddr
    have hport := ServiceAddr.exists_fromStr_iff.mp ⟨addr, haddr⟩
    exact h ⟨hbare, hbare.hasHostAndPort_iff.mp hport⟩

end Specs

/-- A peer id: the identity hash of a public key. -/
def keyPeer : PeerId :=
  ⟨0x24080112203b6a27bcceb6a42d62a3a8d02a6f0d73653215771de243a63ac048a18b59da29⟩

/-- Its text, in base58. -/
def keyPeerText : List Char := "12D3KooWDpJ7As7BWAwRMfu1VU2WCqNjvq387JEYKDBj4kx6nXTN".toList

/-- Text forms that read the IPv6 addresses of the standard library and the text of one peer id. -/
def TextForms.onePeer : TextForms :=
  { TextForms.numbers with
    parseIpv6 := Ipv6Addr.fromStr
    parsePeerId := fun s =>
      if s = keyPeerText then .ok keyPeer else .error "invalid multihash" }

/-- `::1` is read as port 1 on the host `:`, `2001:db8::1` as port 1 on the host `2001:db8:`, after
the name of a service as well. A tunnel is accepted without a service name. -/
theorem malformed_accepted :
    BareIpv6 "::1".toList ∧
    ServiceAddr.fromStr .onePeer "::1".toList = .ok ⟨.domain ":", 1⟩ ∧
    BareIpv6 "2001:db8::1".toList ∧
    ExposedService.fromStr .onePeer "web=2001:db8::1".toList =
      .ok ⟨⟨"web"⟩, .domain "2001:db8:", 1⟩ ∧
    TunnelByNameSpec.fromStr .onePeer "web@2001:db8::1".toList =
      .ok ⟨⟨"web"⟩, .domain "2001:db8:", 1⟩ ∧
    TunnelSpec.fromStr .onePeer (keyPeerText ++ ":@localhost:80".toList) =
      .ok ⟨keyPeer, ⟨""⟩, .domain "localhost", 80⟩ := by
  refine ⟨by decide, by decide, by decide, by decide, by decide, ?_⟩
  have hcolon : ':' ∉ keyPeerText := by decide
  have haddr : ServiceAddr.fromStr .onePeer "localhost:80".toList =
      .ok ⟨.domain "localhost", 80⟩ := by decide
  have hpeer : TextForms.onePeer.parsePeerId keyPeerText = .ok keyPeer := by
    simp [TextForms.onePeer]
  exact TunnelSpec.fromStr_eq_ok_iff.mpr
    ⟨keyPeerText, "localhost:80".toList, ⟨rfl, hcolon, by decide⟩, hpeer, haddr⟩

end Punchgate
