import Punchgate.Library.Partial
import Punchgate.PortMapping

/-!
# Acquiring a port mapping

Two attempts to map the port run side by side, one with UPnP and one with NAT-PMP or PCP, each in
several requests to the gateway. The first that succeeds gives the result, and the other is dropped
where it stands. This file follows the requests in every order. The answers of the gateway come from
libraries and are chosen by the actions.
-/

namespace Punchgate

/-- `PortMapping`. -/
structure PortMapping where
  /-- `external_addr`. -/
  externalAddr : SocketAddr
  /-- `protocol_used`. -/
  protocolUsed : String
  deriving DecidableEq

/-- What makes an attempt, or the detection before it, fail. -/
inductive MappingError
  | gateway
  | gatewayIpv6 (ip : Ipv6Addr)
  | noLocalAddr
  | upnpSearch
  | upnpExternalIp
  | upnpNotRoutable (ip : IpAddr)
  | upnpAddPort
  | zeroPort
  | natPmp
  | natPmpExternalAddress
  | natPmpNotRoutable (ip : IpAddr)
  deriving DecidableEq

/-- `detect_gateway`. -/
def detectGateway (gateway : Option IpAddr) : Except MappingError Ipv4Addr :=
  match gateway with
  | none => .error .gateway
  | some (.v4 ip) => .ok ip
  | some (.v6 ip) => .error (.gatewayIpv6 ip)

/-- An interface of the host. -/
structure Interface where
  /-- `is_loopback`. -/
  isLoopback : Bool
  /-- Its IPv4 addresses. -/
  ipv4 : List Ipv4Addr

/-- `detect_local_addr`. -/
def detectLocalAddr (interfaces : List Interface) : Except MappingError Ipv4Addr :=
  match ((interfaces.filter (!·.isLoopback)).flatMap (·.ipv4)).find?
      fun addr => !addr.isLoopback && !addr.isLinkLocal with
  | some addr => .ok addr
  | none => .error .noLocalAddr

/-- Where `try_upnp` is. -/
inductive UpnpTask
  | searching
  | askingIp
  | adding (ip : IpAddr)
  | done
  deriving DecidableEq

/-- Where `try_nat_pmp_pcp` is. -/
inductive NatPmpTask
  | mapping
  | askingIp (port : UInt16)
  | done
  deriving DecidableEq

/-- `PortMappingType`. -/
inductive MappingType
  | pcp (externalIp : IpAddr)
  | natPmp
  deriving DecidableEq

/-- A mapping that the gateway holds. -/
structure Granted where
  /-- The port of the gateway. -/
  externalPort : UInt16
  /-- Where its datagrams are sent. -/
  client : SocketAddr
  deriving DecidableEq

/-- The state of `acquire_port_mapping` after the detection. -/
structure Acquisition where
  /-- The port to map. -/
  internalPort : UInt16
  /-- The address of the host. -/
  localIp : Ipv4Addr
  /-- `try_upnp`. -/
  upnp : UpnpTask
  /-- `try_nat_pmp_pcp`. -/
  natPmp : NatPmpTask
  /-- The addresses that gateways have reported as their own. -/
  reported : List IpAddr
  /-- The mappings that gateways hold. -/
  granted : List Granted
  /-- What failed, as it is logged. -/
  failures : List MappingError
  /-- What is returned. -/
  result : Option (Option PortMapping)
  deriving DecidableEq

/-- An answer to the request of one of the attempts, or the end of the time. -/
inductive MappingAction
  | upnpGateway (found : Bool)
  | upnpExternalIp (ip : Option IpAddr)
  | upnpAdded (added : Bool)
  | natPmpMapped (mapping : Option (UInt16 × MappingType))
  | natPmpExternalIp (ip : Option Ipv4Addr)
  | timeOut
  deriving DecidableEq

namespace Acquisition

/-- Both attempts begin. -/
def start (internalPort : UInt16) (localIp : Ipv4Addr) : Acquisition :=
  ⟨internalPort, localIp, .searching, .mapping, [], [], [], none⟩

/-- The client of every mapping. -/
def client (s : Acquisition) : SocketAddr := ⟨.v4 s.localIp, s.internalPort⟩

/-- The gateway maps one of its ports to the port of the host. With NAT-PMP it maps to the address
that the request came from, which is taken to be the address of the host. -/
def grant (s : Acquisition) (port : UInt16) : Acquisition :=
  { s with granted := s.granted ++ [⟨port, s.client⟩] }

/-- An attempt has succeeded. -/
def succeed (s : Acquisition) (ip : IpAddr) (port : UInt16) (protocol : String) : Acquisition :=
  { s with result := some (some ⟨⟨ip, port⟩, protocol⟩) }

/-- An attempt has failed. If the other has failed before, nothing is left to wait for. -/
def fail (s : Acquisition) (e : MappingError) : Acquisition :=
  { s with
    failures := s.failures ++ [e]
    result := if s.upnp = .done ∧ s.natPmp = .done then some none else none }

/-- `try_nat_pmp_pcp` knows the address of the gateway. -/
def natPmpReported (s : Acquisition) (ip : IpAddr) (port : UInt16) (protocol : String) :
    Acquisition :=
  let s := { s with natPmp := .done, reported := s.reported ++ [ip] }
  if isPubliclyRoutable ip then s.succeed ip port protocol else s.fail (.natPmpNotRoutable ip)

/-- One answer. After the result is returned there is nobody to take it. -/
def step (s : Acquisition) (a : MappingAction) : Option Acquisition :=
  if s.result.isSome then none
  else
    match a, s.upnp, s.natPmp with
    | .upnpGateway true, .searching, _ => some { s with upnp := .askingIp }
    | .upnpGateway false, .searching, _ => some ({ s with upnp := .done }.fail .upnpSearch)
    | .upnpExternalIp none, .askingIp, _ => some ({ s with upnp := .done }.fail .upnpExternalIp)
    | .upnpExternalIp (some ip), .askingIp, _ =>
      let s := { s with reported := s.reported ++ [ip] }
      if isPubliclyRoutable ip then some { s with upnp := .adding ip }
      else some ({ s with upnp := .done }.fail (.upnpNotRoutable ip))
    | .upnpAdded true, .adding ip, _ =>
      some (({ s with upnp := .done }.grant s.internalPort).succeed ip s.internalPort "UPnP")
    | .upnpAdded false, .adding _, _ => some ({ s with upnp := .done }.fail .upnpAddPort)
    | .natPmpMapped mapping, _, .mapping =>
      if s.internalPort = 0 then some ({ s with natPmp := .done }.fail .zeroPort)
      else
        match mapping with
        | none => some ({ s with natPmp := .done }.fail .natPmp)
        | some (port, mappingType) =>
          match mappingType with
          | .pcp externalIp => some ((s.grant port).natPmpReported externalIp port "PCP")
          | .natPmp => some { s.grant port with natPmp := .askingIp port }
    | .natPmpExternalIp none, _, .askingIp _ =>
      some ({ s with natPmp := .done }.fail .natPmpExternalAddress)
    | .natPmpExternalIp (some ip), _, .askingIp port =>
      some (s.natPmpReported (.v4 ip) port "NAT-PMP")
    | .timeOut, _, _ => some { s with result := some none }
    | _, _, _ => none

/-- The two attempts and the gateways. -/
def machine : Partial Acquisition MappingAction := ⟨step⟩

end Acquisition

/-- `acquire_port_mapping` up to the attempts. -/
def startAcquisition (internalPort : UInt16) (gateway : Option IpAddr)
    (interfaces : List Interface) : Except MappingError Acquisition :=
  match detectGateway gateway with
  | .error e => .error e
  | .ok _ =>
    match detectLocalAddr interfaces with
    | .error e => .error e
    | .ok localIp => .ok (.start internalPort localIp)

/-- The address that the node announces for a mapping. The text that it parses has the IP after
`/ip4/`, and the node does not survive a text that is not parsed. -/
def mappedAddr (mapping : PortMapping) : Option Multiaddr :=
  match mapping.externalAddr.ip with
  | .v4 ip => some ⟨[.ip4 ip, .udp mapping.externalAddr.port, .quicV1]⟩
  | .v6 _ => none

namespace Acquisition

variable {s t : Acquisition} {a : MappingAction} {as : List MappingAction}

/-- What each answer does, and where it is awaited. -/
inductive Step (s : Acquisition) : MappingAction → Acquisition → Prop
  | found (hupnp : s.upnp = .searching) : Step s (.upnpGateway true) { s with upnp := .askingIp }
  | notFound (hupnp : s.upnp = .searching) :
      Step s (.upnpGateway false) ({ s with upnp := .done }.fail .upnpSearch)
  | noIp (hupnp : s.upnp = .askingIp) :
      Step s (.upnpExternalIp none) ({ s with upnp := .done }.fail .upnpExternalIp)
  | routable {ip : IpAddr} (hupnp : s.upnp = .askingIp) (hroutable : isPubliclyRoutable ip = true) :
      Step s (.upnpExternalIp (some ip))
        { s with upnp := .adding ip, reported := s.reported ++ [ip] }
  | notRoutable {ip : IpAddr} (hupnp : s.upnp = .askingIp) :
      Step s (.upnpExternalIp (some ip))
        ({ s with upnp := .done, reported := s.reported ++ [ip] }.fail (.upnpNotRoutable ip))
  | added {ip : IpAddr} (hupnp : s.upnp = .adding ip) :
      Step s (.upnpAdded true)
        (({ s with upnp := .done }.grant s.internalPort).succeed ip s.internalPort "UPnP")
  | notAdded {ip : IpAddr} (hupnp : s.upnp = .adding ip) :
      Step s (.upnpAdded false) ({ s with upnp := .done }.fail .upnpAddPort)
  | notMapped {mapping : Option (UInt16 × MappingType)} {e : MappingError}
      (hnatPmp : s.natPmp = .mapping) :
      Step s (.natPmpMapped mapping) ({ s with natPmp := .done }.fail e)
  | pcp {port : UInt16} {externalIp : IpAddr} (hnatPmp : s.natPmp = .mapping) :
      Step s (.natPmpMapped (some (port, .pcp externalIp)))
        ((s.grant port).natPmpReported externalIp port "PCP")
  | natPmp {port : UInt16} (hnatPmp : s.natPmp = .mapping) :
      Step s (.natPmpMapped (some (port, .natPmp)))
        { s.grant port with natPmp := .askingIp port }
  | noAddress {port : UInt16} (hnatPmp : s.natPmp = .askingIp port) :
      Step s (.natPmpExternalIp none) ({ s with natPmp := .done }.fail .natPmpExternalAddress)
  | address {port : UInt16} {ip : Ipv4Addr} (hnatPmp : s.natPmp = .askingIp port) :
      Step s (.natPmpExternalIp (some ip)) (s.natPmpReported (.v4 ip) port "NAT-PMP")
  | timeOut : Step s .timeOut { s with result := some none }

/-- **Inversion.** Before there is a result, an answer is one of these. -/
theorem step_cases (h : s.step a = some t) : s.result = none ∧ s.Step a t := by
  unfold step at h
  split at h
  · cases h
  · rename_i hresult
    refine ⟨by simpa using hresult, ?_⟩
    split at h
    · cases h
      exact .found ‹_›
    · cases h
      exact .notFound ‹_›
    · cases h
      exact .noIp ‹_›
    · rename_i ip hupnp
      dsimp only at h
      split at h
      · rename_i hroutable
        cases h
        exact .routable hupnp hroutable
      · cases h
        exact .notRoutable hupnp
    · cases h
      exact .added ‹_›
    · rename_i ip hupnp
      cases h
      exact .notAdded hupnp
    · rename_i mapping hnatPmp
      split at h
      · cases h
        exact .notMapped hnatPmp
      · split at h
        · cases h
          exact .notMapped hnatPmp
        · split at h
          · cases h
            exact .pcp hnatPmp
          · cases h
            exact .natPmp hnatPmp
    · rename_i port hnatPmp
      cases h
      exact .noAddress hnatPmp
    · rename_i ip port hnatPmp
      cases h
      exact .address hnatPmp
    · cases h
      exact .timeOut
    · cases h

/-! ## What a mapping rests on -/

/-- A mapping that can be used: the gateway has a routable address, and it has granted the port. -/
structure Backs (s : Acquisition) (m : PortMapping) : Prop where
  /-- The address is routable. -/
  routable : isPubliclyRoutable m.externalAddr.ip = true
  /-- A gateway has reported it. -/
  reported : m.externalAddr.ip ∈ s.reported
  /-- Datagrams to the port are sent to the host. -/
  granted : ⟨m.externalAddr.port, s.client⟩ ∈ s.granted
  /-- With UPnP the port is the same outside. -/
  upnp : m.protocolUsed = "UPnP" → m.externalAddr.port = s.internalPort

/-- What the attempts hold while they run. -/
structure Held (s : Acquisition) : Prop where
  /-- The port is mapped with UPnP only if the address is routable. -/
  adding : ∀ ip, s.upnp = .adding ip → isPubliclyRoutable ip = true ∧ ip ∈ s.reported
  /-- The address is asked for once the port is mapped. -/
  asking : ∀ port, s.natPmp = .askingIp port → ⟨port, s.client⟩ ∈ s.granted
  /-- All mappings lead to the host. -/
  clients : ∀ g ∈ s.granted, g.client = s.client

/-- How many attempts are over. -/
def ended (s : Acquisition) : ℕ :=
  (if s.upnp = .done then 1 else 0) + (if s.natPmp = .done then 1 else 0)

/-- What holds at all times. -/
structure Sound (s : Acquisition) : Prop extends s.Held where
  /-- A result can be used. -/
  backs : ∀ m, s.result = some (some m) → s.Backs m
  /-- Without a result, the attempts that are over have failed. -/
  failed : s.result = none → s.failures.length = s.ended

/-- Both attempts are over, or not. -/
theorem ended_eq_two_iff : s.ended = 2 ↔ s.upnp = .done ∧ s.natPmp = .done := by
  unfold ended
  split_ifs with hupnp hnatPmp hnatPmp <;> simp [hupnp, hnatPmp]

/-- One of the attempts goes on or is over. -/
theorem Held.upnp (h : s.Held) {u : UpnpTask} {ips : List IpAddr}
    (hadding : ∀ ip, u = .adding ip → isPubliclyRoutable ip = true ∧ ip ∈ ips) :
    ({ s with upnp := u, reported := ips } : Acquisition).Held where
  adding := hadding
  asking := h.asking
  clients := h.clients

/-- The other attempt goes on or is over. -/
theorem Held.natPmp (h : s.Held) {n : NatPmpTask} {ips : List IpAddr} (hips : s.reported ⊆ ips)
    (hasking : ∀ port, n = .askingIp port → ⟨port, s.client⟩ ∈ s.granted) :
    ({ s with natPmp := n, reported := ips } : Acquisition).Held where
  adding ip hip := ⟨(h.adding ip hip).1, hips (h.adding ip hip).2⟩
  asking := hasking
  clients := h.clients

/-- One more mapping that leads to the host. -/
theorem Held.grant (h : s.Held) (port : UInt16) : (s.grant port).Held where
  adding := h.adding
  asking port' hport := List.mem_append_left _ (h.asking port' hport)
  clients g hg := by
    rcases List.mem_append.mp hg with hold | hnew
    · exact h.clients g hold
    · rw [List.mem_singleton.mp hnew]
      rfl

/-- What an answer comes to: nothing is given up before both attempts have failed, unless the time
is over. -/
def Allows (a : MappingAction) (t : Acquisition) : Prop :=
  t.Sound ∧ (t.result = some none → a = .timeOut ∨ t.failures.length = 2)

/-- The attempts go on. -/
theorem Held.wait (h : t.Held) (hrunning : t.result = none) (hcount : t.failures.length = t.ended) :
    Allows a t := by
  refine ⟨⟨h, fun m hm => ?_, fun _ => hcount⟩, fun hnone => ?_⟩
  · rw [hrunning] at hm
    cases hm
  · rw [hrunning] at hnone
    cases hnone

/-- A failure is counted, and the second one ends the attempts. -/
theorem Held.fail (h : s.Held) (hcount : s.failures.length + 1 = s.ended) (e : MappingError) :
    Allows a (s.fail e) := by
  have hlength : (s.fail e).failures.length = s.ended := by
    rw [Acquisition.fail, List.length_append]
    exact hcount
  refine ⟨⟨⟨h.adding, h.asking, h.clients⟩, fun m hm => ?_, fun _ => hlength⟩, fun hnone => ?_⟩
  · simp only [Acquisition.fail] at hm
    split at hm <;> cases hm
  · simp only [Acquisition.fail] at hnone
    split at hnone
    · rename_i hdone
      exact .inr (hlength.trans (ended_eq_two_iff.mpr hdone))
    · cases hnone

/-- A mapping that can be used is a result. -/
theorem Held.succeed {ip : IpAddr} {port : UInt16} {protocol : String} (h : s.Held)
    (hbacks : s.Backs ⟨⟨ip, port⟩, protocol⟩) : Allows a (s.succeed ip port protocol) := by
  refine ⟨⟨⟨h.adding, h.asking, h.clients⟩, fun m hm => ?_, nofun⟩, nofun⟩
  cases hm
  exact ⟨hbacks.routable, hbacks.reported, hbacks.granted, hbacks.upnp⟩

/-- The address of the gateway decides over a mapping with NAT-PMP or PCP. -/
theorem Held.natPmpReported {ip : IpAddr} {port : UInt16} {protocol : String} (h : s.Held)
    (hgranted : ⟨port, s.client⟩ ∈ s.granted) (hprotocol : protocol ≠ "UPnP")
    (hcount : s.failures.length = s.ended) (hnatPmp : s.natPmp ≠ .done) :
    Allows a (s.natPmpReported ip port protocol) := by
  have hheld : ({ s with natPmp := .done, reported := s.reported ++ [ip] } : Acquisition).Held :=
    h.natPmp (List.subset_append_left _ _) nofun
  unfold Acquisition.natPmpReported
  dsimp only
  split
  · rename_i hroutable
    exact hheld.succeed ⟨hroutable, List.mem_append_right _ (List.mem_singleton_self ip), hgranted,
      fun heq => absurd heq hprotocol⟩
  · refine hheld.fail ?_ _
    simp only [ended, if_neg hnatPmp] at hcount ⊢
    simp only [hcount, if_pos]

/-- UPnP is over, and NAT-PMP or PCP may be. -/
theorem ended_upnp_done {s : Acquisition} (hcount : s.failures.length = s.ended)
    (hupnp : s.upnp ≠ .done) : s.failures.length + 1 = { s with upnp := .done }.ended := by
  simp only [ended, if_neg hupnp] at hcount ⊢
  rw [hcount, if_pos trivial]
  omega

/-- NAT-PMP or PCP is over, and UPnP may be. -/
theorem ended_natPmp_done {s : Acquisition} (hcount : s.failures.length = s.ended)
    (hnatPmp : s.natPmp ≠ .done) : s.failures.length + 1 = { s with natPmp := .done }.ended := by
  simp only [ended, if_neg hnatPmp] at hcount ⊢
  rw [hcount, if_pos trivial]

/-- Every answer comes to this. -/
theorem allows_step (h : s.Sound) (hstep : s.step a = some t) : Allows a t := by
  obtain ⟨hrunning, hstep⟩ := step_cases hstep
  have hcount := h.failed hrunning
  have hupnpDone (hne : s.upnp ≠ .done) : Held { s with upnp := .done } ∧
      s.failures.length + 1 = { s with upnp := .done }.ended :=
    ⟨h.toHeld.upnp fun _ h => (by cases h), ended_upnp_done hcount hne⟩
  have hnatPmpDone (hne : s.natPmp ≠ .done) : Held { s with natPmp := .done } ∧
      s.failures.length + 1 = { s with natPmp := .done }.ended :=
    ⟨h.toHeld.natPmp (List.Subset.refl _) fun _ h => (by cases h), ended_natPmp_done hcount hne⟩
  have hgranted (port : UInt16) : (⟨port, s.client⟩ : Granted) ∈ (s.grant port).granted :=
    List.mem_append_right _ (List.mem_singleton_self _)
  cases hstep with
  | found hupnp =>
    refine (h.toHeld.upnp fun _ h => (by cases h)).wait hrunning ?_
    simpa [ended, hupnp] using hcount
  | notFound hupnp =>
    obtain ⟨hheld, hdone⟩ := hupnpDone (by simp [hupnp])
    exact hheld.fail hdone _
  | noIp hupnp =>
    obtain ⟨hheld, hdone⟩ := hupnpDone (by simp [hupnp])
    exact hheld.fail hdone _
  | @routable ip hupnp hroutable =>
    refine (h.toHeld.upnp fun ip' hip' => ?_).wait hrunning ?_
    · cases hip'
      exact ⟨hroutable, List.mem_append_right _ (List.mem_singleton_self ip)⟩
    · simpa [ended, hupnp] using hcount
  | notRoutable hupnp =>
    refine (h.toHeld.upnp fun _ h => (by cases h)).fail ?_ _
    exact ended_upnp_done (s := s) hcount (by simp [hupnp])
  | @added ip hupnp =>
    obtain ⟨hroutable, hreported⟩ := h.adding ip hupnp
    obtain ⟨hheld, -⟩ := hupnpDone (by simp [hupnp])
    exact (hheld.grant s.internalPort).succeed
      ⟨hroutable, hreported, hgranted s.internalPort, fun _ => rfl⟩
  | notAdded hupnp =>
    obtain ⟨hheld, hdone⟩ := hupnpDone (by simp [hupnp])
    exact hheld.fail hdone _
  | notMapped hnatPmp =>
    obtain ⟨hheld, hdone⟩ := hnatPmpDone (by simp [hnatPmp])
    exact hheld.fail hdone _
  | @pcp port externalIp hnatPmp =>
    refine (h.toHeld.grant port).natPmpReported (hgranted port) (by decide) hcount ?_
    simp [Acquisition.grant, hnatPmp]
  | @natPmp port hnatPmp =>
    refine ((h.toHeld.grant port).natPmp (List.Subset.refl _) fun port' hport => ?_).wait hrunning ?_
    · cases hport
      exact hgranted port
    · simpa [ended, hnatPmp, Acquisition.grant] using hcount
  | noAddress hnatPmp =>
    obtain ⟨hheld, hdone⟩ := hnatPmpDone (by simp [hnatPmp])
    exact hheld.fail hdone _
  | @address port ip hnatPmp =>
    exact h.toHeld.natPmpReported (h.asking port hnatPmp) (by decide) hcount (by simp [hnatPmp])
  | timeOut => exact ⟨⟨⟨h.adding, h.asking, h.clients⟩, nofun, nofun⟩, fun _ => .inl rfl⟩

/-- The port and the address of the host stay. -/
theorem host_step (hstep : s.step a = some t) :
    t.internalPort = s.internalPort ∧ t.localIp = s.localIp := by
  have hreported (s : Acquisition) (ip : IpAddr) (port : UInt16) (protocol : String) :
      (s.natPmpReported ip port protocol).internalPort = s.internalPort ∧
        (s.natPmpReported ip port protocol).localIp = s.localIp := by
    unfold natPmpReported
    dsimp only
    split <;> exact ⟨rfl, rfl⟩
  cases (step_cases hstep).2 with
  | pcp => exact hreported _ _ _ _
  | address => exact hreported _ _ _ _
  | _ => exact ⟨rfl, rfl⟩

/-- The attempts begin with nothing. -/
theorem sound_start (port : UInt16) (localIp : Ipv4Addr) : (start port localIp).Sound where
  adding _ h := by cases h
  asking _ h := by cases h
  clients _ h := by cases h
  backs _ h := by cases h
  failed _ := rfl

/-- What holds after every run. -/
structure Acquired (port : UInt16) (localIp : Ipv4Addr) (as : List MappingAction)
    (s : Acquisition) : Prop extends s.Sound where
  /-- The port is the one to map. -/
  internalPort : s.internalPort = port
  /-- The host is the one it is mapped for. -/
  localIp : s.localIp = localIp
  /-- Nothing is given up early. -/
  givenUp : s.result = some none → .timeOut ∈ as ∨ s.failures.length = 2

variable {port : UInt16} {localIp : Ipv4Addr}

/-- It holds after every run. -/
theorem acquired_run (h : machine.run (start port localIp) as = some s) :
    s.Acquired port localIp as := by
  refine machine.run_induction (P := fun as s => s.Acquired port localIp as)
    ⟨sound_start port localIp, rfl, rfl, fun h => (by cases h)⟩ ?_ h
  intro as t a u _ hacquired hstep
  obtain ⟨hsound, hnone⟩ := allows_step hacquired.toSound hstep
  obtain ⟨hport, hip⟩ := host_step hstep
  refine ⟨hsound, hport.trans hacquired.internalPort, hip.trans hacquired.localIp, fun hresult => ?_⟩
  refine (hnone hresult).imp_left fun heq => ?_
  rw [heq]
  exact List.mem_append_right _ (List.mem_singleton_self _)

end Acquisition

/-- The address for a routable mapping is one that other nodes dial, and it is taken apart again. -/
theorem mappedAddr_usable {m : PortMapping} {addr : Multiaddr}
    (hroutable : isPubliclyRoutable m.externalAddr.ip = true) (h : mappedAddr m = some addr) :
    isSupportedDirectCandidate addr = true ∧
      extractPublicIpPort addr = some (m.externalAddr.ip, m.externalAddr.port) := by
  unfold mappedAddr at h
  split at h
  · rename_i ip hip
    cases h
    rw [hip] at hroutable ⊢
    have hrewrite : needsExternalRewrite ip = false := by
      simp only [isPubliclyRoutable, Bool.and_eq_true, Bool.not_eq_true'] at hroutable
      obtain ⟨⟨⟨⟨hprivate, hloopback⟩, -⟩, hunspecified⟩, -⟩ := hroutable
      rw [needsExternalRewrite, hunspecified, hprivate, hloopback]
      rfl
    constructor
    · simp [isSupportedDirectCandidate, hasP2pCircuit, hasUdpAndQuic, hasPublicIp, hrewrite]
    · simp [extractPublicIpPort, scanPublicIpPort, hrewrite]
  · cases h

/-- The address of the host belongs to one of its interfaces, and others can reach it. -/
theorem detectLocalAddr_eq_ok {interfaces : List Interface} {addr : Ipv4Addr}
    (h : detectLocalAddr interfaces = .ok addr) :
    (∃ i ∈ interfaces, i.isLoopback = false ∧ addr ∈ i.ipv4) ∧ addr.isLoopback = false ∧
      addr.isLinkLocal = false := by
  unfold detectLocalAddr at h
  split at h
  · rename_i found hfound
    cases h
    obtain ⟨i, hi, hmem⟩ := List.mem_flatMap.mp (List.mem_of_find?_eq_some hfound)
    obtain ⟨hinterface, hloopback⟩ := List.mem_filter.mp hi
    have hreached := List.find?_some hfound
    simp only [Bool.and_eq_true, Bool.not_eq_true'] at hreached
    exact ⟨⟨i, hinterface, by simpa using hloopback, hmem⟩, hreached⟩
  · cases h

/-- The attempts begin with the address of the host. -/
theorem startAcquisition_eq_ok {internalPort : UInt16} {gateway : Option IpAddr}
    {interfaces : List Interface} {s : Acquisition}
    (h : startAcquisition internalPort gateway interfaces = .ok s) :
    ∃ localIp, detectLocalAddr interfaces = .ok localIp ∧ s = .start internalPort localIp := by
  unfold startAcquisition at h
  split at h
  · cases h
  · split at h
    · cases h
    · rename_i localIp hlocal
      cases h
      exact ⟨localIp, hlocal, rfl⟩

namespace Acquisition

variable {s s₀ : Acquisition} {as : List MappingAction} {port : UInt16} {gateway : Option IpAddr}
  {interfaces : List Interface}

/-- **A mapping that is acquired can be used.** In whatever order the answers come, a mapping that is
returned has a routable address that a gateway has reported, and a port whose datagrams it sends to
an address of the host. The node survives it exactly if the reported address is an IPv4 one, and then
announces an address that other nodes dial. Nothing is returned only if the time is over or both
attempts have failed. -/
theorem acquired_mapping (hstart : startAcquisition port gateway interfaces = .ok s₀)
    (h : machine.run s₀ as = some s) :
    ∃ localIp, (∃ i ∈ interfaces, i.isLoopback = false ∧ localIp ∈ i.ipv4) ∧
      localIp.isLoopback = false ∧ localIp.isLinkLocal = false ∧
      (∀ g ∈ s.granted, g.client = ⟨.v4 localIp, port⟩) ∧
      (∀ m, s.result = some (some m) →
        isPubliclyRoutable m.externalAddr.ip = true ∧ m.externalAddr.ip ∈ s.reported ∧
        ⟨m.externalAddr.port, ⟨.v4 localIp, port⟩⟩ ∈ s.granted ∧
        (m.protocolUsed = "UPnP" → m.externalAddr.port = port) ∧
        (mappedAddr m = none ↔ ∃ ip, m.externalAddr.ip = .v6 ip) ∧
        ∀ addr, mappedAddr m = some addr → isSupportedDirectCandidate addr = true ∧
          extractPublicIpPort addr = some (m.externalAddr.ip, m.externalAddr.port)) ∧
      (s.result = some none → .timeOut ∈ as ∨ s.failures.length = 2) := by
  obtain ⟨localIp, hlocal, rfl⟩ := startAcquisition_eq_ok hstart
  obtain ⟨hinterface, hloopback, hlinkLocal⟩ := detectLocalAddr_eq_ok hlocal
  have hacquired := acquired_run h
  have hclient : s.client = ⟨.v4 localIp, port⟩ := by
    rw [client, hacquired.internalPort, hacquired.localIp]
  refine ⟨localIp, hinterface, hloopback, hlinkLocal, fun g hg => (hacquired.clients g hg).trans hclient,
    fun m hm => ?_, hacquired.givenUp⟩
  have hbacks := hacquired.backs m hm
  refine ⟨hbacks.routable, hbacks.reported, hclient ▸ hbacks.granted, fun hupnp => ?_, ?_,
    fun addr haddr => mappedAddr_usable hbacks.routable haddr⟩
  · exact (hbacks.upnp hupnp).trans hacquired.internalPort
  · unfold mappedAddr
    split
    · rename_i ip hip
      simp [hip]
    · rename_i ip hip
      simp [hip]

/-- A host behind a router. -/
def homeInterfaces : List Interface :=
  [⟨true, [⟨127, 0, 0, 1⟩]⟩, ⟨false, [⟨169, 254, 3, 4⟩, ⟨192, 168, 1, 2⟩]⟩]

/-- The gateway maps the port with NAT-PMP and then reports its address, while UPnP finds none. -/
def natPmpActions : List MappingAction :=
  [.upnpGateway true, .natPmpMapped (some (50000, .natPmp)), .upnpExternalIp none,
    .natPmpExternalIp (some ⟨203, 0, 113, 7⟩)]

/-- Every answer is awaited. -/
theorem run_natPmpActions_isSome :
    (machine.run (start 4001 ⟨192, 168, 1, 2⟩) natPmpActions).isSome = true := by
  decide +kernel

/-- The attempts at their end. -/
def natPmpAcquisition : Acquisition :=
  (machine.run (start 4001 ⟨192, 168, 1, 2⟩) natPmpActions).get run_natPmpActions_isSome

/-- The mapping that the gateway holds is returned. -/
theorem acquired_mapping_natPmp :
    ∃ localIp, (∃ i ∈ homeInterfaces, i.isLoopback = false ∧ localIp ∈ i.ipv4) ∧
      localIp.isLoopback = false ∧ localIp.isLinkLocal = false ∧
      (∀ g ∈ natPmpAcquisition.granted, g.client = ⟨.v4 localIp, 4001⟩) ∧
      (∀ m, natPmpAcquisition.result = some (some m) →
        isPubliclyRoutable m.externalAddr.ip = true ∧
        m.externalAddr.ip ∈ natPmpAcquisition.reported ∧
        ⟨m.externalAddr.port, ⟨.v4 localIp, 4001⟩⟩ ∈ natPmpAcquisition.granted ∧
        (m.protocolUsed = "UPnP" → m.externalAddr.port = 4001) ∧
        (mappedAddr m = none ↔ ∃ ip, m.externalAddr.ip = .v6 ip) ∧
        ∀ addr, mappedAddr m = some addr → isSupportedDirectCandidate addr = true ∧
          extractPublicIpPort addr = some (m.externalAddr.ip, m.externalAddr.port)) ∧
      (natPmpAcquisition.result = some none →
        .timeOut ∈ natPmpActions ∨ natPmpAcquisition.failures.length = 2) :=
  have hstart : startAcquisition 4001 (some (.v4 ⟨192, 168, 1, 1⟩)) homeInterfaces =
      .ok (start 4001 ⟨192, 168, 1, 2⟩) := by decide +kernel
  acquired_mapping hstart (Option.some_get run_natPmpActions_isSome).symm

example : natPmpAcquisition.result =
    some (some ⟨⟨.v4 ⟨203, 0, 113, 7⟩, 50000⟩, "NAT-PMP"⟩) := by decide +kernel

end Acquisition

end Punchgate
