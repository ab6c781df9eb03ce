import Punchgate.Node.Run
import Punchgate.Library.Text

/-!
# Specs on the command line

Exposed services and tunnels are given as texts, several of a kind in one argument with commas
between them. What was parsed is written with commas again into the configuration of the installed
service, which parses it at every start. A text is the list of its characters. The text forms of
IPv6 addresses and peer ids come from libraries and are a parameter.
-/

namespace Punchgate

section Definitions

/-- `std::num::ParseIntError`, as far as a `u16` can raise it. -/
inductive ParseIntError
  /-- cannot parse integer from empty string -/
  | empty
  /-- invalid digit found in string -/
  | invalidDigit
  /-- number too large to fit in target type -/
  | posOverflow
  deriving DecidableEq

/-- The digits of a `u16`, after those with the given value. -/
def parseU16Digits (value : ℕ) : List Char → Except ParseIntError UInt16
  | [] => .ok (UInt16.ofNat value)
  | c :: cs =>
    if c.isDigit then
      let value := 10 * value + (c.toNat - '0'.toNat)
      if value < 2 ^ 16 then parseU16Digits value cs else .error .posOverflow
    else .error .invalidDigit

/-- `u16::from_str`. -/
def parseU16 (s : List Char) : Except ParseIntError UInt16 :=
  if s = [] then .error .empty
  else if s = ['+'] ∨ s = ['-'] then .error .invalidDigit
  else parseU16Digits 0 (if s.head? = some '+' then s.tail else s)

/-- `u16::fmt`. -/
def fmtU16 (n : UInt16) : List Char := Nat.toDigits 10 n.toNat

/-- An octet of an IPv4 address: at most 255, without leading zeros. -/
def parseOctet (s : List Char) : Except Unit UInt8 :=
  let value := Nat.ofDigitChars 10 s 0
  if s = Nat.toDigits 10 value ∧ value < 2 ^ 8 then .ok (UInt8.ofNat value) else .error ()

/-- `Ipv4Addr::from_str`. -/
def Ipv4Addr.fromStr (s : List Char) : Option Ipv4Addr :=
  match Text.readAll '.' parseOctet s with
  | .ok [a, b, c, d] => some ⟨a, b, c, d⟩
  | _ => none

/-- `Ipv4Addr::fmt`. -/
def Ipv4Addr.fmt (ip : Ipv4Addr) : List Char :=
  Text.writeAll '.' (fun octet => Nat.toDigits 10 octet.toNat) [ip.a, ip.b, ip.c, ip.d]

/-- The text forms of the types of libraries. -/
structure TextForms where
  /-- `Ipv6Addr::fmt`. -/
  fmtIpv6 : Ipv6Addr → List Char
  /-- `Ipv6Addr::from_str`. -/
  parseIpv6 : List Char → Option Ipv6Addr
  /-- `PeerId::fmt`. -/
  fmtPeerId : PeerId → List Char
  /-- `PeerId::from_str`, with the text of its error. -/
  parsePeerId : List Char → Except String PeerId

/-- `HostAddrParseError`. -/
inductive HostAddrParseError
  /-- empty host -/
  | emptyHost
  deriving DecidableEq

/-- `ServiceAddrParseError`. -/
inductive ServiceAddrParseError
  /-- missing port separator ':' -/
  | missingPort
  /-- empty host -/
  | emptyHost
  /-- invalid port -/
  | invalidPort (e : ParseIntError)
  deriving DecidableEq

/-- `ExposeParseError`. -/
inductive ExposeParseError
  /-- expose format: name=host:port (missing '=') -/
  | missingSeparator
  /-- service name cannot be empty -/
  | emptyName
  /-- invalid address -/
  | invalidAddr (e : ServiceAddrParseError)
  deriving DecidableEq

/-- `TunnelByNameParseError`. -/
inductive TunnelByNameParseError
  /-- tunnel-by-name format: service_name@bind_addr (missing '@') -/
  | missingSeparator
  /-- service name cannot be empty -/
  | emptyName
  /-- invalid bind address -/
  | invalidAddr (e : ServiceAddrParseError)
  deriving DecidableEq

/-- `TunnelSpecParseError`. -/
inductive TunnelSpecParseError
  /-- tunnel format: peer_id:service_name@bind_addr (missing '@') -/
  | missingBindSeparator
  /-- tunnel format: peer_id:service_name@bind_addr (missing ':') -/
  | missingPeerSeparator
  /-- invalid peer ID -/
  | invalidPeerId (text : String)
  /-- invalid bind address -/
  | invalidBindAddr (e : ServiceAddrParseError)
  deriving DecidableEq

variable (forms : TextForms)

/-- `HostAddr::from_str`. -/
def HostAddr.fromStr (s : List Char) : Except HostAddrParseError HostAddr :=
  if s = [] then .error .emptyHost
  else
    match Ipv4Addr.fromStr s with
    | some ip => .ok (.v4 ip)
    | none =>
      match forms.parseIpv6 s with
      | some ip => .ok (.v6 ip)
      | none => .ok (.domain (String.ofList s))

/-- `HostAddr::fmt`. -/
def HostAddr.fmt : HostAddr → List Char
  | .v4 ip => ip.fmt
  | .v6 ip => forms.fmtIpv6 ip
  | .domain d => d.toList

/-- The host and the port of an address: an opening bracket ends at the first `]:`, otherwise the
last colon separates. -/
def ServiceAddr.split (s : List Char) : Option (List Char × List Char) :=
  match s with
  | '[' :: afterBracket => Text.splitOnce [']', ':'] afterBracket
  | _ => Text.rsplitOnce [':'] s

/-- `ServiceAddr::from_str`. -/
def ServiceAddr.fromStr (s : List Char) : Except ServiceAddrParseError ServiceAddr :=
  match split s with
  | none => .error .missingPort
  | some (host, portStr) =>
    if host = [] then .error .emptyHost
    else do
      let port ← (parseU16 portStr).mapError .invalidPort
      let hostAddr ← (HostAddr.fromStr forms host).mapError fun _ => .emptyHost
      .ok ⟨hostAddr, port⟩

/-- `ServiceAddr::fmt`. -/
def ServiceAddr.fmt (addr : ServiceAddr) : List Char :=
  match addr.host with
  | .v6 _ => '[' :: (addr.host.fmt forms ++ [']', ':'] ++ fmtU16 addr.port)
  | .v4 _ | .domain _ => addr.host.fmt forms ++ ':' :: fmtU16 addr.port

/-- A name and an address with a separator between them, as `ExposedService` and
`TunnelByNameSpec` are parsed. -/
def parseNamedAddr {ε : Type} (split : List Char → Option (List Char × List Char))
    (missingSeparator emptyName : ε) (invalidAddr : ServiceAddrParseError → ε) (s : List Char) :
    Except ε (ServiceName × ServiceAddr) :=
  match split s with
  | none => .error missingSeparator
  | some (name, addrStr) =>
    if name = [] then .error emptyName
    else do
      let addr ← (ServiceAddr.fromStr forms addrStr).mapError invalidAddr
      .ok (⟨String.ofList name⟩, addr)

/-- `ExposedService::from_str`. -/
def ExposedService.fromStr (s : List Char) : Except ExposeParseError ExposedService := do
  let (name, localAddr) ← parseNamedAddr forms (Text.splitOnce ['='])
    .missingSeparator .emptyName .invalidAddr s
  .ok ⟨name, localAddr⟩

/-- `TunnelByNameSpec::from_str`. -/
def TunnelByNameSpec.fromStr (s : List Char) : Except TunnelByNameParseError TunnelByNameSpec := do
  let (serviceName, bindAddr) ← parseNamedAddr forms (Text.rsplitOnce ['@'])
    .missingSeparator .emptyName .invalidAddr s
  .ok ⟨serviceName, bindAddr⟩

/-- `TunnelSpec::from_str`. -/
def TunnelSpec.fromStr (s : List Char) : Except TunnelSpecParseError TunnelSpec :=
  match Text.rsplitOnce ['@'] s with
  | none => .error .missingBindSeparator
  | some (peerAndService, bindStr) =>
    match Text.splitOnce [':'] peerAndService with
    | none => .error .missingPeerSeparator
    | some (peerStr, serviceName) => do
      let remotePeer ← (forms.parsePeerId peerStr).mapError .invalidPeerId
      let bindAddr ← (ServiceAddr.fromStr forms bindStr).mapError .invalidBindAddr
      .ok ⟨remotePeer, ⟨String.ofList serviceName⟩, bindAddr⟩

/-- One exposed service in `format_exposed_services`. -/
def ExposedService.fmt (spec : ExposedService) : List Char :=
  spec.name.name.toList ++ '=' :: spec.localAddr.fmt forms

/-- One tunnel in `format_tunnel_by_name_specs`. -/
def TunnelByNameSpec.fmt (spec : TunnelByNameSpec) : List Char :=
  spec.serviceName.name.toList ++ '@' :: spec.bindAddr.fmt forms

/-- One tunnel in `format_tunnel_specs`. -/
def TunnelSpec.fmt (spec : TunnelSpec) : List Char :=
  forms.fmtPeerId spec.remotePeer ++
    ':' :: (spec.serviceName.name.toList ++ '@' :: spec.bindAddr.fmt forms)

/-- `format_exposed_services`. -/
def formatExposedServices (items : List ExposedService) : List Char :=
  Text.writeAll ',' (ExposedService.fmt forms) items

/-- `format_tunnel_specs`. -/
def formatTunnelSpecs (items : List TunnelSpec) : List Char :=
  Text.writeAll ',' (TunnelSpec.fmt forms) items

/-- `format_tunnel_by_name_specs`. -/
def formatTunnelByNameSpecs (items : List TunnelByNameSpec) : List Char :=
  Text.writeAll ',' (TunnelByNameSpec.fmt forms) items

/-- The `--expose` argument: a value at every comma. -/
def parseExposedServices (s : List Char) : Except ExposeParseError (List ExposedService) :=
  Text.readAll ',' (ExposedService.fromStr forms) s

/-- The `--tunnel` argument: a value at every comma. -/
def parseTunnelSpecs (s : List Char) : Except TunnelSpecParseError (List TunnelSpec) :=
  Text.readAll ',' (TunnelSpec.fromStr forms) s

/-- The `--tunnel-by-name` argument: a value at every comma. -/
def parseTunnelByNameSpecs (s : List Char) :
    Except TunnelByNameParseError (List TunnelByNameSpec) :=
  Text.readAll ',' (TunnelByNameSpec.fromStr forms) s

end Definitions

section Numbers

variable {value : ℕ} {cs s : List Char}

/-- More digits never make a smaller number. -/
theorem le_ofDigitChars : value ≤ Nat.ofDigitChars 10 cs value := by
  rw [Nat.ofDigitChars_eq_ofDigitChars_zero]
  have hpos : 0 < 10 ^ cs.length := Nat.pow_pos (by omega)
  calc value ≤ 10 ^ cs.length * value := Nat.le_mul_of_pos_left value hpos
    _ ≤ _ := Nat.le_add_right _ _

/-- Digits of a small number are read as that number. -/
theorem parseU16Digits_eq_ok (hdigits : ∀ c ∈ cs, c.isDigit)
    (hlt : Nat.ofDigitChars 10 cs value < 2 ^ 16) :
    parseU16Digits value cs = .ok (UInt16.ofNat (Nat.ofDigitChars 10 cs value)) := by
  induction cs generalizing value with
  | nil => rw [parseU16Digits, Nat.ofDigitChars_nil]
  | cons c cs ih =>
    rw [Nat.ofDigitChars_cons] at hlt ⊢
    have hsmall := lt_of_le_of_lt le_ofDigitChars hlt
    rw [parseU16Digits, if_pos (hdigits c List.mem_cons_self)]
    simp only [if_pos hsmall]
    exact ih (fun d hd => hdigits d (List.mem_cons_of_mem c hd)) hlt

/-- A `u16` is written in digits. -/
theorem isDigit_of_mem_fmtU16 {n : UInt16} {c : Char} (hc : c ∈ fmtU16 n) : c.isDigit :=
  Nat.isDigit_of_mem_toDigits (by omega) (by omega) hc

/-- A `u16` is read back. -/
@[simp] theorem parseU16_fmtU16 (n : UInt16) : parseU16 (fmtU16 n) = .ok n := by
  have hsign : ∀ c ∈ fmtU16 n, c ≠ '+' ∧ c ≠ '-' := by
    intro c hc
    have hdigit := isDigit_of_mem_fmtU16 hc
    constructor <;> rintro rfl <;> simp at hdigit
  have hplus : fmtU16 n ≠ ['+'] := fun h => (hsign '+' (by simp [h])).1 rfl
  have hminus : fmtU16 n ≠ ['-'] := fun h => (hsign '-' (by simp [h])).2 rfl
  have hhead : (fmtU16 n).head? ≠ some '+' := fun h =>
    (hsign '+' (List.mem_of_mem_head? h)).1 rfl
  have hvalue : Nat.ofDigitChars 10 (fmtU16 n) 0 = n.toNat := Nat.ofDigitChars_ten_toDigits
  rw [parseU16, if_neg (by simp [fmtU16]), if_neg (by simp [hplus, hminus]), if_neg hhead]
  rw [parseU16Digits_eq_ok (fun c => isDigit_of_mem_fmtU16) (by rw [hvalue]; exact n.toNat_lt)]
  rw [hvalue, UInt16.ofNat_toNat]

/-- An octet is read back. -/
theorem parseOctet_toDigits (octet : UInt8) :
    parseOctet (Nat.toDigits 10 octet.toNat) = .ok octet := by
  unfold parseOctet
  simp [octet.toNat_lt]

/-- What is read as an octet has digits only. -/
theorem isDigit_of_parseOctet {octet : UInt8} (h : parseOctet s = .ok octet) :
    ∀ c ∈ s, c.isDigit := by
  unfold parseOctet at h
  dsimp only at h
  split at h
  · rename_i hs
    intro c hc
    rw [hs.1] at hc
    exact Nat.isDigit_of_mem_toDigits (by omega) (by omega) hc
  · cases h

/-- An IPv4 address is read back. -/
@[simp] theorem Ipv4Addr.fromStr_fmt (ip : Ipv4Addr) : fromStr ip.fmt = some ip := by
  have hdot : ∀ octet : UInt8, '.' ∉ Nat.toDigits 10 octet.toNat := by
    intro octet hmem
    have hdigit := Nat.isDigit_of_mem_toDigits (by omega) (by omega) hmem
    simp at hdigit
  have hread : Text.readAll '.' parseOctet ip.fmt = .ok [ip.a, ip.b, ip.c, ip.d] :=
    (Text.readAll_writeAll_iff (by simp) fun octet _ => hdot octet).mpr fun octet _ =>
      parseOctet_toDigits octet
  rw [fromStr, hread]

/-- An IPv4 address has a text. -/
theorem Ipv4Addr.fmt_ne_nil (ip : Ipv4Addr) : ip.fmt ≠ [] := by
  intro hnil
  have hread := fromStr_fmt ip
  have hnone : fromStr [] = none := by decide
  rw [hnil, hnone] at hread
  cases hread

/-- An IPv4 address has no other characters than digits and dots. -/
theorem Ipv4Addr.chars_of_fromStr {ip : Ipv4Addr} (h : fromStr s = some ip) :
    ∀ c ∈ s, c.isDigit ∨ c = '.' := by
  unfold fromStr at h
  split at h
  · rename_i a b c d hread
    have hparts := Text.mapM_eq_ok_iff.mp hread
    simp only [List.forall₂_cons_right_iff, List.forall₂_nil_right_iff] at hparts
    obtain ⟨p, _, hp, ⟨q, _, hq, ⟨r, _, hr, ⟨t, _, ht, rfl, rfl⟩, rfl⟩, rfl⟩, hsplit⟩ := hparts
    have hs : s = ['.'].intercalate [p, q, r, t] := by
      rw [← hsplit, List.intercalate_splitOn]
    intro x hx
    have hmem : x ∈ p ∨ x = '.' ∨ x ∈ q ∨ x = '.' ∨ x ∈ r ∨ x = '.' ∨ x ∈ t := by
      simpa [hs, List.intercalate] using hx
    rcases hmem with hx | hdot | hx | hdot | hx | hdot | hx
    exacts [.inl (isDigit_of_parseOctet hp x hx), .inr hdot, .inl (isDigit_of_parseOctet hq x hx),
      .inr hdot, .inl (isDigit_of_parseOctet hr x hx), .inr hdot,
      .inl (isDigit_of_parseOctet ht x hx)]
  · cases h

end Numbers

/-- What the specs rely on: texts of IPv6 addresses and peer ids are read back. An IPv6 text has a
colon and besides only letters, digits, colons and dots, a peer id only letters and digits. -/
structure TextForms.Lawful (forms : TextForms) : Prop where
  parse_ipv6 : ∀ ip, forms.parseIpv6 (forms.fmtIpv6 ip) = some ip
  ipv6_chars : ∀ ip, ∀ c ∈ forms.fmtIpv6 ip, c.isAlphanum ∨ c = ':' ∨ c = '.'
  ipv6_colon : ∀ ip, ':' ∈ forms.fmtIpv6 ip
  parse_peer : ∀ p, forms.parsePeerId (forms.fmtPeerId p) = .ok p
  peer_chars : ∀ p, ∀ c ∈ forms.fmtPeerId p, c.isAlphanum

/-- A domain that begins like an address in brackets. -/
def HostAddr.IsBracketedDomain : HostAddr → Prop
  | .v4 _ | .v6 _ => False
  | .domain d => ['['] <+: d.toList

instance : DecidablePred HostAddr.IsBracketedDomain
  | .v4 _ | .v6 _ => instDecidableFalse
  | .domain d => inferInstanceAs (Decidable (['['] <+: d.toList))

section Addresses

variable {forms : TextForms} {s : List Char} {host : HostAddr} {addr : ServiceAddr}

/-- A host that was parsed is parsed again from its text. -/
theorem HostAddr.fromStr_fmt (hforms : forms.Lawful) (h : fromStr forms s = .ok host) :
    fromStr forms (host.fmt forms) = .ok host := by
  unfold fromStr at h
  split at h
  · cases h
  · rename_i hne
    split at h
    · rename_i ip hip
      cases h
      rw [fmt, fromStr, if_neg ip.fmt_ne_nil, Ipv4Addr.fromStr_fmt]
    · rename_i hnot
      split at h
      · rename_i ip hip
        cases h
        have hcolon := hforms.ipv6_colon ip
        have hnot4 : Ipv4Addr.fromStr (forms.fmtIpv6 ip) = none := by
          by_contra hsome
          obtain ⟨ip4, hip4⟩ := Option.ne_none_iff_exists'.mp hsome
          have hchar := Ipv4Addr.chars_of_fromStr hip4 ':' hcolon
          simp at hchar
        rw [fmt, fromStr, if_neg (List.ne_nil_of_mem hcolon), hnot4, hforms.parse_ipv6]
      · rename_i hnot6
        cases h
        rw [fmt, String.toList_ofList, fromStr, if_neg hne, hnot, hnot6]

/-- A domain is the text it was parsed from. -/
theorem HostAddr.toList_of_fromStr {d : String} (h : fromStr forms s = .ok (.domain d)) :
    d.toList = s := by
  unfold fromStr at h
  split at h
  · cases h
  · split at h
    · cases h
    · split at h
      · cases h
      · cases h
        exact String.toList_ofList

/-- The text of a host has no other characters than the text it was parsed from, letters, digits,
colons and dots. -/
theorem HostAddr.mem_of_mem_fmt (hforms : forms.Lawful) (h : fromStr forms s = .ok host)
    {c : Char} (hc : c ∈ host.fmt forms) : c ∈ s ∨ c.isAlphanum ∨ c = ':' ∨ c = '.' := by
  cases host with
  | v4 ip =>
    rcases Ipv4Addr.chars_of_fromStr (Ipv4Addr.fromStr_fmt ip) c hc with hdigit | hdot
    · exact .inr (.inl (by simp [Char.isAlphanum, hdigit]))
    · exact .inr (.inr (.inr hdot))
  | v6 ip => exact .inr (hforms.ipv6_chars ip c hc)
  | domain d => exact .inl (toList_of_fromStr h ▸ hc)

/-- An address is parsed if its parts are. -/
theorem ServiceAddr.fromStr_eq_ok_iff : fromStr forms s = .ok addr ↔
    ∃ hostStr portStr, split s = some (hostStr, portStr) ∧
      parseU16 portStr = .ok addr.port ∧ HostAddr.fromStr forms hostStr = .ok addr.host := by
  obtain ⟨host, port⟩ := addr
  unfold fromStr
  cases hsplit : split s with
  | none => simp
  | some parts =>
    obtain ⟨hostStr, portStr⟩ := parts
    by_cases hne : hostStr = []
    · simp [hne, HostAddr.fromStr]
    · simp [hne, Text.bind_eq_ok_iff, Text.mapError_eq_ok_iff]

/-- Without an opening bracket the last colon separates. -/
theorem ServiceAddr.split_of_not_bracket (h : ¬['['] <+: s) : split s = Text.rsplitOnce [':'] s := by
  unfold split
  split
  · exact absurd (List.prefix_append _ _) h
  · rfl

/-- The parts of an address are parts of its text. -/
theorem ServiceAddr.mem_of_mem_host {hostStr portStr : List Char}
    (h : split s = some (hostStr, portStr)) {c : Char} (hc : c ∈ hostStr) : c ∈ s := by
  unfold split at h
  split at h
  · rw [Text.eq_append_of_splitOnce h]
    simp [hc]
  · rw [(Text.rsplitOnce_singleton_iff.mp h).1]
    simp [hc]

/-- Parts that are put together with a colon come apart again, if the host does not begin with a
bracket. -/
theorem ServiceAddr.split_append {hostStr : List Char} (port : UInt16) (hne : hostStr ≠ [])
    (hbracket : ¬['['] <+: hostStr) :
    split (hostStr ++ ':' :: fmtU16 port) = some (hostStr, fmtU16 port) := by
  have hcolon : ':' ∉ fmtU16 port := fun hmem => by
    simpa using isDigit_of_mem_fmtU16 hmem
  have hbracket' : ¬['['] <+: hostStr ++ ':' :: fmtU16 port := by
    obtain ⟨x, xs, rfl⟩ := List.exists_cons_of_ne_nil hne
    simpa using hbracket
  rw [split_of_not_bracket hbracket']
  exact Text.rsplitOnce_singleton_iff.mpr ⟨rfl, hcolon⟩

/-- A host in brackets comes out of them, if it has no bracket itself. -/
theorem ServiceAddr.split_brackets {hostStr : List Char} (port : UInt16) (hbracket : ']' ∉ hostStr) :
    split ('[' :: (hostStr ++ [']', ':'] ++ fmtU16 port)) = some (hostStr, fmtU16 port) :=
  Text.splitOnce_append hbracket

/-- A text that begins with a bracket never comes apart as it was put together with a colon: what
is found before `]:` is shorter. -/
theorem ServiceAddr.length_le_of_split {rest hostStr portStr : List Char} {port : UInt16}
    (h : split ('[' :: rest ++ ':' :: fmtU16 port) = some (hostStr, portStr)) :
    hostStr.length ≤ rest.length := by
  have hcolon : ':' ∉ fmtU16 port := fun hmem => by
    simpa using isDigit_of_mem_fmtU16 hmem
  have hparts := Text.eq_append_of_splitOnce h
  have hle : (hostStr ++ [']']).length ≤ rest.length :=
    Text.length_le_of_notMem hcolon (by simpa using hparts)
  rw [List.length_append] at hle
  omega

/-- A host without a bracket in front is parsed again, together with its port. -/
theorem ServiceAddr.fromStr_append {hostStr : List Char} (port : UInt16)
    (hbracket : ¬['['] <+: hostStr) (hhost : HostAddr.fromStr forms hostStr = .ok host) :
    fromStr forms (hostStr ++ ':' :: fmtU16 port) = .ok ⟨host, port⟩ := by
  have hne : hostStr ≠ [] := by
    rintro rfl
    cases hhost
  exact fromStr_eq_ok_iff.mpr ⟨_, _, split_append port hne hbracket, parseU16_fmtU16 port, hhost⟩

/-- An address that was parsed is parsed again from its text, unless its host is a domain that
begins with a bracket. -/
theorem ServiceAddr.fromStr_fmt_iff (hforms : forms.Lawful) (h : fromStr forms s = .ok addr) :
    fromStr forms (addr.fmt forms) = .ok addr ↔ ¬addr.host.IsBracketedDomain := by
  obtain ⟨hostStr, portStr, -, -, hhost⟩ := fromStr_eq_ok_iff.mp h
  have hagain := HostAddr.fromStr_fmt hforms hhost
  obtain ⟨host, port⟩ := addr
  cases host with
  | v4 ip =>
    have hbracket : ¬['['] <+: ip.fmt := fun hinitial => by
      simpa using Ipv4Addr.chars_of_fromStr (Ipv4Addr.fromStr_fmt ip) '['
        (hinitial.subset List.mem_cons_self)
    exact iff_of_true (fromStr_append port hbracket hagain) not_false
  | v6 ip =>
    have hbracket : ']' ∉ forms.fmtIpv6 ip := fun hmem => by
      simpa using hforms.ipv6_chars ip ']' hmem
    have hsplit := split_brackets port hbracket
    exact iff_of_true (fromStr_eq_ok_iff.mpr ⟨_, _, hsplit, parseU16_fmtU16 port, hagain⟩) not_false
  | domain d =>
    by_cases hbracket : ['['] <+: d.toList
    · refine iff_of_false (fun hread => ?_) (not_not_intro hbracket)
      obtain ⟨rest, hrest⟩ := hbracket
      obtain ⟨hostStr', portStr', hsplit, -, hhost'⟩ := fromStr_eq_ok_iff.mp hread
      have htext : d.toList = '[' :: rest := hrest.symm
      change split (d.toList ++ ':' :: fmtU16 port) = some (hostStr', portStr') at hsplit
      rw [htext] at hsplit
      have hlen := length_le_of_split hsplit
      rw [← HostAddr.toList_of_fromStr hhost', htext, List.length_cons] at hlen
      omega
    · exact iff_of_true (fromStr_append port hbracket hagain) hbracket

/-- A separator that is not in the text of an address is not in the text the address has when it
is written. -/
theorem ServiceAddr.notMem_fmt (hforms : forms.Lawful) (h : fromStr forms s = .ok addr) {c : Char}
    (hs : c ∉ s) (hsep : ¬c.isAlphanum) (hpunct : c ∉ [':', '.', '[', ']']) :
    c ∉ addr.fmt forms := by
  obtain ⟨hostStr, portStr, hsplit, -, hhost⟩ := fromStr_eq_ok_iff.mp h
  have hport : c ∉ fmtU16 addr.port := fun hc =>
    hsep (by simp [Char.isAlphanum, isDigit_of_mem_fmtU16 hc])
  have hhost' : c ∉ addr.host.fmt forms := fun hc => by
    rcases HostAddr.mem_of_mem_fmt hforms hhost hc with hmem | hchar | rfl | rfl
    · exact hs (mem_of_mem_host hsplit hmem)
    · exact hsep hchar
    · simp at hpunct
    · simp at hpunct
  unfold fmt
  split <;> simp_all

end Addresses

section Specs

variable {forms : TextForms} {s : List Char}

/-- A name and an address are parsed if the separator is found, the name is not empty and the
address is parsed. -/
theorem parseNamedAddr_eq_ok_iff {ε : Type} {split : List Char → Option (List Char × List Char)}
    {missingSeparator emptyName : ε} {invalidAddr : ServiceAddrParseError → ε}
    {name : ServiceName} {addr : ServiceAddr} :
    parseNamedAddr forms split missingSeparator emptyName invalidAddr s = .ok (name, addr) ↔
      ∃ addrStr, split s = some (name.name.toList, addrStr) ∧ name.name.toList ≠ [] ∧
        ServiceAddr.fromStr forms addrStr = .ok addr := by
  constructor
  · intro h
    unfold parseNamedAddr at h
    split at h
    · cases h
    · rename_i nameStr addrStr hsplit
      split at h
      · cases h
      · rename_i hne
        obtain ⟨addr', haddr, heq⟩ := Text.bind_eq_ok_iff.mp h
        cases heq
        rw [String.toList_ofList]
        exact ⟨addrStr, hsplit, hne, Text.mapError_eq_ok_iff.mp haddr⟩
  · rintro ⟨addrStr, hsplit, hne, haddr⟩
    rw [parseNamedAddr, hsplit]
    dsimp only
    rw [if_neg hne, Text.bind_eq_ok_iff]
    exact ⟨addr, Text.mapError_eq_ok_iff.mpr haddr, by simp⟩

/-- A name and an address that were parsed are parsed again from a text that comes apart into the
name and the text of the address, if the address is. -/
theorem parseNamedAddr_again_iff {ε : Type} {split : List Char → Option (List Char × List Char)}
    {missingSeparator emptyName : ε} {invalidAddr : ServiceAddrParseError → ε}
    {name : ServiceName} {addr : ServiceAddr} (hforms : forms.Lawful)
    (h : parseNamedAddr forms split missingSeparator emptyName invalidAddr s = .ok (name, addr))
    {s' : List Char} (hsplit : split s' = some (name.name.toList, addr.fmt forms)) :
    parseNamedAddr forms split missingSeparator emptyName invalidAddr s' = .ok (name, addr) ↔
      ¬addr.host.IsBracketedDomain := by
  obtain ⟨addrStr, -, hne, haddr⟩ := parseNamedAddr_eq_ok_iff.mp h
  rw [← ServiceAddr.fromStr_fmt_iff hforms haddr, parseNamedAddr_eq_ok_iff]
  constructor
  · rintro ⟨addrStr', hsplit', -, hagain⟩
    rw [hsplit] at hsplit'
    cases hsplit'
    exact hagain
  · exact fun hagain => ⟨_, hsplit, hne, hagain⟩

/-- An exposed service is a name and an address, separated by the first `=`. -/
theorem ExposedService.fromStr_eq_ok_iff {spec : ExposedService} : fromStr forms s = .ok spec ↔
    parseNamedAddr forms (Text.splitOnce ['=']) ExposeParseError.missingSeparator .emptyName
      .invalidAddr s = .ok (spec.name, spec.localAddr) := by
  rw [fromStr, Text.bind_eq_ok_iff]
  constructor
  · rintro ⟨⟨name, addr⟩, hparts, heq⟩
    cases heq
    exact hparts
  · exact fun hparts => ⟨_, hparts, rfl⟩

/-- A tunnel by name is a name and an address, separated by the last `@`. -/
theorem TunnelByNameSpec.fromStr_eq_ok_iff {spec : TunnelByNameSpec} :
    fromStr forms s = .ok spec ↔
      parseNamedAddr forms (Text.rsplitOnce ['@']) TunnelByNameParseError.missingSeparator
        .emptyName .invalidAddr s = .ok (spec.serviceName, spec.bindAddr) := by
  rw [fromStr, Text.bind_eq_ok_iff]
  constructor
  · rintro ⟨⟨name, addr⟩, hparts, heq⟩
    cases heq
    exact hparts
  · exact fun hparts => ⟨_, hparts, rfl⟩

/-- A tunnel is parsed if its peer, up to the first colon, and its address, from the last `@` on,
are. -/
theorem TunnelSpec.fromStr_eq_ok_iff {spec : TunnelSpec} : fromStr forms s = .ok spec ↔
    ∃ peerStr addrStr,
      (s = peerStr ++ ':' :: (spec.serviceName.name.toList ++ '@' :: addrStr) ∧
        ':' ∉ peerStr ∧ '@' ∉ addrStr) ∧
      forms.parsePeerId peerStr = .ok spec.remotePeer ∧
      ServiceAddr.fromStr forms addrStr = .ok spec.bindAddr := by
  constructor
  · intro h
    unfold fromStr at h
    split at h
    · cases h
    · rename_i peerAndService addrStr hat
      split at h
      · cases h
      · rename_i peerStr nameStr hcolon
        obtain ⟨peer, hpeer, h⟩ := Text.bind_eq_ok_iff.mp h
        obtain ⟨addr, haddr, heq⟩ := Text.bind_eq_ok_iff.mp h
        cases heq
        obtain ⟨hs, hat'⟩ := Text.rsplitOnce_singleton_iff.mp hat
        obtain ⟨hleft, hcolon'⟩ := Text.splitOnce_singleton_iff.mp hcolon
        refine ⟨peerStr, addrStr, ⟨?_, hcolon', hat'⟩, Text.mapError_eq_ok_iff.mp hpeer,
          Text.mapError_eq_ok_iff.mp haddr⟩
        simp [hs, hleft]
  · rintro ⟨peerStr, addrStr, ⟨hs, hcolon, hat⟩, hpeer, haddr⟩
    have hsplit : Text.rsplitOnce ['@'] s =
        some (peerStr ++ ':' :: spec.serviceName.name.toList, addrStr) :=
      Text.rsplitOnce_singleton_iff.mpr ⟨by simpa using hs, hat⟩
    have hsplit' : Text.splitOnce [':'] (peerStr ++ ':' :: spec.serviceName.name.toList) =
        some (peerStr, spec.serviceName.name.toList) :=
      Text.splitOnce_singleton_iff.mpr ⟨rfl, hcolon⟩
    rw [fromStr, hsplit]
    dsimp only
    rw [hsplit']
    simp [hpeer, haddr, Except.mapError, bind, Except.bind]

/-- An exposed service is parsed again if its address is. -/
theorem ExposedService.fromStr_fmt_iff {spec : ExposedService} (hforms : forms.Lawful)
    (h : fromStr forms s = .ok spec) :
    fromStr forms (spec.fmt forms) = .ok spec ↔ ¬spec.localAddr.host.IsBracketedDomain := by
  rw [fromStr_eq_ok_iff] at h ⊢
  obtain ⟨addrStr, hsplit, -, -⟩ := parseNamedAddr_eq_ok_iff.mp h
  have hname := (Text.splitOnce_singleton_iff.mp hsplit).2
  exact parseNamedAddr_again_iff hforms h (Text.splitOnce_singleton_iff.mpr ⟨rfl, hname⟩)

/-- An exposed service is written without commas. -/
theorem ExposedService.comma_notMem_fmt {spec : ExposedService} (hforms : forms.Lawful)
    (hs : ',' ∉ s) (h : fromStr forms s = .ok spec) : ',' ∉ spec.fmt forms := by
  obtain ⟨addrStr, hsplit, -, haddr⟩ := parseNamedAddr_eq_ok_iff.mp (fromStr_eq_ok_iff.mp h)
  rw [(Text.splitOnce_singleton_iff.mp hsplit).1, List.mem_append, List.mem_cons, not_or,
    not_or] at hs
  have haddr' := ServiceAddr.notMem_fmt hforms haddr hs.2.2 (by decide) (by decide)
  simp [fmt, hs.1, haddr']

/-- A tunnel by name is parsed again if its address is: the address has no `@`. -/
theorem TunnelByNameSpec.fromStr_fmt_iff {spec : TunnelByNameSpec} (hforms : forms.Lawful)
    (h : fromStr forms s = .ok spec) :
    fromStr forms (spec.fmt forms) = .ok spec ↔ ¬spec.bindAddr.host.IsBracketedDomain := by
  rw [fromStr_eq_ok_iff] at h ⊢
  obtain ⟨addrStr, hsplit, -, haddr⟩ := parseNamedAddr_eq_ok_iff.mp h
  have hat := ServiceAddr.notMem_fmt hforms haddr (Text.rsplitOnce_singleton_iff.mp hsplit).2
    (by decide) (by decide)
  exact parseNamedAddr_again_iff hforms h (Text.rsplitOnce_singleton_iff.mpr ⟨rfl, hat⟩)

/-- A tunnel by name is written without commas. -/
theorem TunnelByNameSpec.comma_notMem_fmt {spec : TunnelByNameSpec} (hforms : forms.Lawful)
    (hs : ',' ∉ s) (h : fromStr forms s = .ok spec) : ',' ∉ spec.fmt forms := by
  obtain ⟨addrStr, hsplit, -, haddr⟩ := parseNamedAddr_eq_ok_iff.mp (fromStr_eq_ok_iff.mp h)
  rw [(Text.rsplitOnce_singleton_iff.mp hsplit).1, List.mem_append, List.mem_cons, not_or,
    not_or] at hs
  have haddr' := ServiceAddr.notMem_fmt hforms haddr hs.2.2 (by decide) (by decide)
  simp [fmt, hs.1, haddr']

/-- A tunnel is parsed again if its address is. The first colon is the one after the peer id, which
has only letters and digits. -/
theorem TunnelSpec.fromStr_fmt_iff {spec : TunnelSpec} (hforms : forms.Lawful)
    (h : fromStr forms s = .ok spec) :
    fromStr forms (spec.fmt forms) = .ok spec ↔ ¬spec.bindAddr.host.IsBracketedDomain := by
  obtain ⟨peerStr, addrStr, ⟨-, -, hat⟩, -, haddr⟩ := fromStr_eq_ok_iff.mp h
  rw [← ServiceAddr.fromStr_fmt_iff hforms haddr, fromStr_eq_ok_iff]
  have hat' := ServiceAddr.notMem_fmt hforms haddr hat (by decide) (by decide)
  have hcolon : ':' ∉ forms.fmtPeerId spec.remotePeer := fun hmem => by
    simpa using hforms.peer_chars _ ':' hmem
  constructor
  · rintro ⟨peerStr', addrStr', ⟨hs, hcolon', -⟩, -, hagain⟩
    have hfirst : Text.splitOnce [':'] (spec.fmt forms) = some (forms.fmtPeerId spec.remotePeer,
        spec.serviceName.name.toList ++ '@' :: spec.bindAddr.fmt forms) :=
      Text.splitOnce_singleton_iff.mpr ⟨rfl, hcolon⟩
    rw [Text.splitOnce_singleton_iff.mpr ⟨hs, hcolon'⟩] at hfirst
    have heq : addrStr' = spec.bindAddr.fmt forms := by
      simp only [Option.some.injEq, Prod.mk.injEq, List.append_cancel_left_eq] at hfirst
      exact (List.cons.inj hfirst.2).2
    rwa [← heq]
  · exact fun hagain => ⟨_, _, ⟨rfl, hcolon, hat'⟩, hforms.parse_peer _, hagain⟩

/-- A tunnel is written without commas. -/
theorem TunnelSpec.comma_notMem_fmt {spec : TunnelSpec} (hforms : forms.Lawful)
    (hs : ',' ∉ s) (h : fromStr forms s = .ok spec) : ',' ∉ spec.fmt forms := by
  obtain ⟨peerStr, addrStr, ⟨rfl, -⟩, -, haddr⟩ := fromStr_eq_ok_iff.mp h
  simp only [List.mem_append, List.mem_cons, not_or] at hs
  have haddr' := ServiceAddr.notMem_fmt hforms haddr hs.2.2.2.2 (by decide) (by decide)
  have hpeer : ',' ∉ forms.fmtPeerId spec.remotePeer := fun hmem => by
    simpa using hforms.peer_chars _ ',' hmem
  simp [fmt, hs.2.2.1, hpeer, haddr']

/-- Specs that were parsed from an argument are parsed again from what is written into the
configuration of the service, the same specs in the same order, unless an address has a domain
that begins with a bracket. -/
theorem specs_parsed_again_iff (hforms : forms.Lawful) :
    (∀ items, parseExposedServices forms s = .ok items →
      (parseExposedServices forms (formatExposedServices forms items) = .ok items ↔
        ∀ spec ∈ items, ¬spec.localAddr.host.IsBracketedDomain)) ∧
    (∀ items, parseTunnelSpecs forms s = .ok items →
      (parseTunnelSpecs forms (formatTunnelSpecs forms items) = .ok items ↔
        ∀ spec ∈ items, ¬spec.bindAddr.host.IsBracketedDomain)) ∧
    (∀ items, parseTunnelByNameSpecs forms s = .ok items →
      (parseTunnelByNameSpecs forms (formatTunnelByNameSpecs forms items) = .ok items ↔
        ∀ spec ∈ items, ¬spec.bindAddr.host.IsBracketedDomain)) := by
  refine ⟨fun items h => ?_, fun items h => ?_, fun items h => ?_⟩
  · exact Text.readAll_writeAll_of_readAll h
      (fun _ _ => ExposedService.comma_notMem_fmt hforms)
      (fun _ _ => ExposedService.fromStr_fmt_iff hforms)
  · exact Text.readAll_writeAll_of_readAll h
      (fun _ _ => TunnelSpec.comma_notMem_fmt hforms)
      (fun _ _ => TunnelSpec.fromStr_fmt_iff hforms)
  · exact Text.readAll_writeAll_of_readAll h
      (fun _ _ => TunnelByNameSpec.comma_notMem_fmt hforms)
      (fun _ _ => TunnelByNameSpec.fromStr_fmt_iff hforms)

end Specs

/-- Text forms with numbers: an IPv6 address after a colon, a peer id as it is. -/
def TextForms.numbers : TextForms where
  fmtIpv6 ip := ':' :: Nat.toDigits 10 ip.bits.toNat
  parseIpv6 s :=
    let value := Nat.ofDigitChars 10 s.tail 0
    if s = ':' :: Nat.toDigits 10 value ∧ value < 2 ^ 128 then some ⟨BitVec.ofNat 128 value⟩
    else none
  fmtPeerId p := Nat.toDigits 10 p.multihash
  parsePeerId s :=
    let value := Nat.ofDigitChars 10 s 0
    if s = Nat.toDigits 10 value then .ok ⟨value⟩ else .error "invalid multihash"

/-- The forms with numbers are read back. -/
theorem TextForms.numbers_lawful : TextForms.numbers.Lawful where
  parse_ipv6 ip := by simp [numbers, Nat.ofDigitChars_ten_toDigits, ip.bits.isLt]
  ipv6_chars ip c hc := by
    rcases List.mem_cons.mp hc with rfl | hc
    · exact .inr (.inl rfl)
    · have hdigit := Nat.isDigit_of_mem_toDigits (by omega) (by omega) hc
      exact .inl (by simp [Char.isAlphanum, hdigit])
  ipv6_colon ip := List.mem_cons_self
  parse_peer p := by simp [numbers, Nat.ofDigitChars_ten_toDigits]
  peer_chars p c hc := by
    have hdigit := Nat.isDigit_of_mem_toDigits (by omega) (by omega) hc
    simp [Char.isAlphanum, hdigit]

/-- A service on `localhost` is parsed again. A service on the host `[::1`, which was parsed from
an address with one bracket too many, is not. -/
theorem specs_parsed_again_iff_localhost :
    parseExposedServices .numbers (formatExposedServices .numbers
      [⟨⟨"web"⟩, .domain "localhost", 80⟩]) = .ok [⟨⟨"web"⟩, .domain "localhost", 80⟩] ∧
    parseExposedServices .numbers (formatExposedServices .numbers
      [⟨⟨"web"⟩, .domain "[::1", 80⟩]) ≠ .ok [⟨⟨"web"⟩, .domain "[::1", 80⟩] := by
  have hlawful := TextForms.numbers_lawful
  have hlocalhost : parseExposedServices .numbers "web=localhost:80".toList =
      .ok [⟨⟨"web"⟩, .domain "localhost", 80⟩] := by decide
  have hbracket : parseExposedServices .numbers "web=[[::1]:80".toList =
      .ok [⟨⟨"web"⟩, .domain "[::1", 80⟩] := by decide
  constructor
  · exact ((specs_parsed_again_iff hlawful).1 _ hlocalhost).mpr (by decide)
  · rw [Ne, (specs_parsed_again_iff hlawful).1 _ hbracket]
    decide

end Punchgate
