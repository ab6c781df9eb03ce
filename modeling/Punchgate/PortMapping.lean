import Mathlib.Data.List.Basic
import Punchgate.ExternalAddr

/-!
# Routable addresses

A port mapping is refused if the gateway reports an address that cannot be reached from outside.
The address predicates test for public addresses once more, over all components of a multiaddr.
They agree with the test of the port mapping except on two ranges: link-local addresses and the
addresses that carriers share among their customers.
-/

namespace Punchgate

/-- `169.254.0.0/16`. -/
def Ipv4Addr.isLinkLocal (ip : Ipv4Addr) : Bool := ip.a = 169 && ip.b = 254

/-- `is_shared_address`: `100.64.0.0/10`. -/
def isSharedAddress (ip : Ipv4Addr) : Bool := ip.a = 100 && ip.b &&& 0xC0 = 64

/-- `is_publicly_routable`. -/
def isPubliclyRoutable : IpAddr → Bool
  | .v4 ip => !ip.isPrivate && !ip.isLoopback && !ip.isLinkLocal && !ip.isUnspecified &&
      !isSharedAddress ip
  | .v6 ip => !ip.isLoopback && !ip.isUnspecified

/-- An IPv4 address of one of the ranges that only the port mapping tests for. -/
def IpAddr.isUntested : IpAddr → Bool
  | .v4 ip => ip.isLinkLocal || isSharedAddress ip
  | .v6 _ => false

/-- The IP of a component that counts as a public one. -/
def Protocol.publicIp : Protocol → Option IpAddr
  | .ip4 ip => if needsExternalRewrite ip then none else some (.v4 ip)
  | .ip6 ip => if ip.isLoopback || ip.isUnspecified then none else some (.v6 ip)
  | _ => none

/-- The port a component names. -/
def Protocol.port : Protocol → Option UInt16
  | .udp port | .tcp port => some port
  | _ => none

/-- The IPs of an address that count as public, from left to right. -/
def Multiaddr.publicIps (addr : Multiaddr) : List IpAddr := addr.protocols.filterMap Protocol.publicIp

/-- The ports of an address, from left to right. -/
def Multiaddr.ports (addr : Multiaddr) : List UInt16 := addr.protocols.filterMap Protocol.port

variable {addr : Multiaddr} {ip : IpAddr} {port : UInt16}

/-- An address has a public IP if one of its components counts as public. -/
theorem hasPublicIp_iff : hasPublicIp addr = true ↔ addr.publicIps ≠ [] := by
  rw [hasPublicIp, List.any_eq_true, Multiaddr.publicIps, Ne, List.filterMap_eq_nil_iff,
    not_forall]
  simp only [Classical.not_imp]
  refine exists_congr fun c => and_congr_right fun _ => ?_
  cases c with
  | ip4 ip => cases h : needsExternalRewrite ip <;> simp [Protocol.publicIp, h]
  | ip6 ip =>
    cases h : ip.isLoopback <;> cases h' : ip.isUnspecified <;> simp [Protocol.publicIp, h, h']
  | _ => simp [Protocol.publicIp]

/-- The loop keeps the last public IP and the last port. -/
theorem foldl_scanPublicIpPort (protocols : List Protocol) :
    protocols.foldl scanPublicIpPort (none, none) =
      ((protocols.filterMap Protocol.publicIp).getLast?,
        (protocols.filterMap Protocol.port).getLast?) := by
  induction protocols using List.reverseRecOn with
  | nil => rfl
  | append_singleton protocols c ih =>
    rw [List.foldl_append, ih, List.filterMap_append, List.filterMap_append]
    cases c with
    | ip4 ip =>
      cases h : needsExternalRewrite ip <;>
        simp [scanPublicIpPort, Protocol.publicIp, Protocol.port, h]
    | ip6 ip =>
      cases h : ip.isLoopback <;> cases h' : ip.isUnspecified <;>
        simp [scanPublicIpPort, Protocol.publicIp, Protocol.port, h, h']
    | _ => simp [scanPublicIpPort, Protocol.publicIp, Protocol.port]

/-- The extracted IP is the last public one, the extracted port the last one. -/
theorem extractPublicIpPort_eq_some_iff : extractPublicIpPort addr = some (ip, port) ↔
    addr.publicIps.getLast? = some ip ∧ addr.ports.getLast? = some port := by
  have hscan : addr.protocols.foldl scanPublicIpPort (none, none) =
      (addr.publicIps.getLast?, addr.ports.getLast?) := foldl_scanPublicIpPort addr.protocols
  rw [extractPublicIpPort, hscan]
  cases addr.publicIps.getLast? <;> cases addr.ports.getLast? <;> simp

/-- An extracted IP is one of the public ones. -/
theorem mem_publicIps_of_extract (h : extractPublicIpPort addr = some (ip, port)) :
    ip ∈ addr.publicIps := List.mem_of_getLast? (extractPublicIpPort_eq_some_iff.mp h).1

/-- An address from which an IP is extracted has a public one. -/
theorem hasPublicIp_of_extractPublicIp (h : extractPublicIp addr = some ip) :
    hasPublicIp addr = true := by
  obtain ⟨⟨ip', port⟩, hextract, -⟩ := Option.map_eq_some_iff.mp h
  exact hasPublicIp_iff.mpr (List.ne_nil_of_mem (mem_publicIps_of_extract hextract))

/-- A public IP is routable unless it is of a range that only the port mapping tests for. -/
theorem isPubliclyRoutable_of_mem (h : ip ∈ addr.publicIps) :
    isPubliclyRoutable ip = true ↔ ip.isUntested = false := by
  obtain ⟨c, -, hc⟩ := List.mem_filterMap.mp h
  cases c with
  | ip4 v4 =>
    cases hrewrite : needsExternalRewrite v4 with
    | true => simp [Protocol.publicIp, hrewrite] at hc
    | false =>
      obtain rfl : IpAddr.v4 v4 = ip := by simpa [Protocol.publicIp, hrewrite] using hc
      simp only [needsExternalRewrite, Bool.or_eq_false_iff] at hrewrite
      obtain ⟨⟨hunspecified, hprivate⟩, hloopback⟩ := hrewrite
      simp [isPubliclyRoutable, IpAddr.isUntested, hunspecified, hprivate, hloopback]
  | ip6 v6 =>
    cases hlocal : (v6.isLoopback || v6.isUnspecified) with
    | true => simp [Protocol.publicIp, hlocal] at hc
    | false =>
      obtain rfl : IpAddr.v6 v6 = ip := by simpa [Protocol.publicIp, hlocal] using hc
      rw [Bool.or_eq_false_iff] at hlocal
      simp [isPubliclyRoutable, IpAddr.isUntested, hlocal.1, hlocal.2]
  | _ => cases hc

/-- The classifiers agree on an address: if it has a public IP then a routable one is among those
that count, and an extracted IP is public and routable. -/
def Multiaddr.ClassifiersAgree (addr : Multiaddr) : Prop :=
  (hasPublicIp addr = true → ∃ ip ∈ addr.publicIps, isPubliclyRoutable ip = true) ∧
    ∀ ip port, extractPublicIpPort addr = some (ip, port) →
      hasPublicIp addr = true ∧ isPubliclyRoutable ip = true

/-- Some public IP of an address, if there is one, is tested by all classifiers, and so is the last
one if the address names a port. -/
def Multiaddr.Tested (addr : Multiaddr) : Prop :=
  (addr.publicIps ≠ [] → ∃ ip ∈ addr.publicIps, ip.isUntested = false) ∧
    (addr.ports ≠ [] → ∀ ip ∈ addr.publicIps.getLast?, ip.isUntested = false)

/-- The classifiers agree on the addresses without link-local and shared IPs that count, and on no
others. -/
theorem classifiersAgree_iff_tested : addr.ClassifiersAgree ↔ addr.Tested := by
  refine and_congr ?_ ⟨fun h hports ip hlast => ?_, fun h ip port hextract => ?_⟩
  · rw [hasPublicIp_iff]
    exact imp_congr_right fun _ => exists_congr fun ip => and_congr_right isPubliclyRoutable_of_mem
  · obtain ⟨port, hport⟩ := Option.ne_none_iff_exists'.mp (mt List.getLast?_eq_none_iff.mp hports)
    have hextract := extractPublicIpPort_eq_some_iff.mpr ⟨hlast, hport⟩
    exact (isPubliclyRoutable_of_mem (mem_publicIps_of_extract hextract)).mp (h ip port hextract).2
  · have hmem := mem_publicIps_of_extract hextract
    obtain ⟨hlast, hport⟩ := extractPublicIpPort_eq_some_iff.mp hextract
    have hports : addr.ports ≠ [] := List.ne_nil_of_mem (List.mem_of_getLast? hport)
    exact ⟨hasPublicIp_iff.mpr (List.ne_nil_of_mem hmem),
      (isPubliclyRoutable_of_mem hmem).mpr (h hports ip hlast)⟩

end Punchgate
