import Wirerust.Dispatcher

/-!
The catalog of known protocols (`protocols.rs`), and how a port that no analyzer has claimed is
looked up in it (`main.rs`).

`lookupProtocolState_tcp` says for which TCP ports the lookup answers that the protocol is one that
is dissected: those that `classify` knows.
-/

namespace Wirerust.Protocols

open Wirerust.Dispatcher

inductive Transport
  | tcp
  | udp
  | linkLayer
  deriving DecidableEq, Repr

structure KnownProtocol where
  name : String
  transport : Transport
  canonicalPorts : List UInt16

def supportedPorts : List UInt16 := [502, 20000, 44818, 2404, 443, 8443, 80, 8080, 53]

def knownProtocols : List KnownProtocol := [
  ⟨"Modbus/TCP", .tcp, [502]⟩,
  ⟨"DNP3", .tcp, [20000]⟩,
  ⟨"EtherNet/IP + CIP", .tcp, [44818]⟩,
  ⟨"TLS", .tcp, [443, 8443]⟩,
  ⟨"ARP", .linkLayer, []⟩,
  ⟨"DNS", .udp, [53]⟩,
  ⟨"HTTP", .tcp, [80, 8080]⟩,
  ⟨"S7comm", .tcp, [102]⟩,
  ⟨"S7comm-plus", .tcp, [102]⟩,
  ⟨"IEC 60870-5-104", .tcp, [2404]⟩,
  ⟨"IEC 61850 MMS", .tcp, [102]⟩,
  ⟨"BACnet/IP", .udp, [47808]⟩,
  ⟨"OPC-UA", .tcp, [4840]⟩,
  ⟨"PROFINET RPC", .udp, [34962, 34963, 34964]⟩,
  ⟨"ICCP/TASE.2", .tcp, [102]⟩,
  ⟨"HART-IP", .udp, [5094]⟩,
  ⟨"IEC 61850 GOOSE", .linkLayer, []⟩,
  ⟨"IEC 61850 Sampled Values", .linkLayer, []⟩,
  ⟨"PROFINET RT/DCP", .linkLayer, []⟩,
  ⟨"EtherCAT", .linkLayer, []⟩,
  ⟨"Ethernet POWERLINK", .linkLayer, []⟩,
  ⟨"SSH", .tcp, [22]⟩,
  ⟨"SMB", .tcp, [445]⟩,
  ⟨"RDP", .tcp, [3389]⟩,
  ⟨"FTP", .tcp, [21]⟩,
  ⟨"Telnet", .tcp, [23]⟩,
  ⟨"SNMP", .udp, [161, 162]⟩,
  ⟨"NTP", .udp, [123]⟩,
  ⟨"SMTP", .tcp, [25]⟩,
  ⟨"LDAP", .tcp, [389]⟩]

inductive ProtocolGapState
  | knownSupported
  | knownUnsupported
  | unknown
  deriving DecidableEq, Repr

def catalogTransport : TransportProto → Transport
  | .tcp => .tcp
  | .udp => .udp

/-- `canonical_ports ∩ SUPPORTED_PORTS ≠ ∅` -/
def KnownProtocol.supported (p : KnownProtocol) : Bool :=
  p.canonicalPorts.any fun port => supportedPorts.contains port

def lookupProtocolState (transport : TransportProto) (port : UInt16) : ProtocolGapState :=
  match knownProtocols.find? fun p =>
      p.transport == catalogTransport transport && p.canonicalPorts.contains port with
  | some p => if p.supported then .knownSupported else .knownUnsupported
  | none => .unknown

/-- The TCP ports that `classify` knows. -/
def dissectedPorts : List UInt16 := [80, 443, 502, 2404, 8080, 8443, 20000, 44818]

/-- The TCP entries of the catalog that are supported have dissected ports, and the others none. -/
theorem catalog_ports : ∀ p ∈ knownProtocols, p.transport = .tcp →
    ∀ port ∈ p.canonicalPorts, (p.supported = true ↔ port ∈ dissectedPorts) := by
  have hall : (knownProtocols.all fun p => p.transport != .tcp ||
      p.canonicalPorts.all fun port => p.supported == dissectedPorts.contains port) = true := by
    decide
  intro p hp htcp port hport
  have hp' := List.all_eq_true.mp hall p hp
  rw [htcp] at hp'
  have hport' := List.all_eq_true.mp hp' port hport
  rw [eq_of_beq hport', List.contains_iff_mem]

theorem catalog_covers : ∀ port ∈ dissectedPorts,
    ∃ p ∈ knownProtocols, p.transport = .tcp ∧ p.canonicalPorts.contains port = true := by
  have hall : (dissectedPorts.all fun port => knownProtocols.any fun p =>
      p.transport == .tcp && p.canonicalPorts.contains port) = true := by decide
  simpa only [List.all_eq_true, List.any_eq_true, Bool.and_eq_true, beq_iff_eq] using hall

theorem lookupProtocolState_tcp (port : UInt16) :
    lookupProtocolState .tcp port = .knownSupported ↔ port ∈ dissectedPorts := by
  unfold lookupProtocolState
  split
  · rename_i p hfind
    have hp := List.find?_some hfind
    simp only [catalogTransport, Bool.and_eq_true, beq_iff_eq, List.contains_iff_mem] at hp
    rw [← catalog_ports p (List.mem_of_find?_eq_some hfind) hp.1 port hp.2]
    by_cases hsup : p.supported = true
    · simp [hsup]
    · simp [hsup]
  · rename_i hnone
    refine ⟨fun h => (by cases h), fun hport => ?_⟩
    obtain ⟨p, hp, htcp, hcontains⟩ := catalog_covers port hport
    have := List.find?_eq_none.mp hnone p hp
    rw [htcp, hcontains] at this
    exact absurd rfl this

end Wirerust.Protocols
