import Wirerust.Packet
import Wirerust.Analyzer.Common

/-!
The totals of a capture (`summary.rs`).

`services` is keyed by text in the code. Its keys are private and come from `app_protocol_hint`
only, so they are the seven services here. `run_ingest` says what the totals of a capture are.
-/

namespace Wirerust

open Lib Wirerust.Analyzer

def Protocol.rank : Protocol → Nat
  | .tcp => 0
  | .udp => 1
  | .icmp => 2
  | .other n => 3 + n.toNat

theorem Protocol.rank_injective : Function.Injective Protocol.rank := by
  intro a b h
  cases a <;> cases b <;> simp only [rank] at h <;> try omega
  all_goals first | rfl | rw [UInt8.toNat_inj.mp (Nat.add_left_cancel h)]

instance : LinearOrder Protocol := LinearOrder.lift' Protocol.rank Protocol.rank_injective

/-- `{:?}` -/
def Protocol.debug : Protocol → String
  | .tcp => "Tcp"
  | .udp => "Udp"
  | .icmp => "Icmp"
  | .other n => "Other(" ++ toString n.toNat ++ ")"

inductive Service
  | dns
  | http
  | tls
  | ssh
  | smb
  | modbus
  | dnp3
  deriving DecidableEq, Repr

def Service.name : Service → String
  | .dns => "DNS"
  | .http => "HTTP"
  | .tls => "TLS"
  | .ssh => "SSH"
  | .smb => "SMB"
  | .modbus => "Modbus"
  | .dnp3 => "DNP3"

def Service.rank : Service → Nat
  | .dns => 0
  | .http => 1
  | .tls => 2
  | .ssh => 3
  | .smb => 4
  | .modbus => 5
  | .dnp3 => 6

theorem Service.rank_injective : Function.Injective Service.rank := by
  intro a b h
  cases a <;> cases b <;> first | rfl | cases h

instance : LinearOrder Service := LinearOrder.lift' Service.rank Service.rank_injective

/-- The service of a pair of ports. -/
def hintOfPorts (ports : List UInt16) : Option Service :=
  if 53 ∈ ports then some .dns
  else if 80 ∈ ports then some .http
  else if 443 ∈ ports then some .tls
  else if 22 ∈ ports then some .ssh
  else if 445 ∈ ports then some .smb
  else if 502 ∈ ports then some .modbus
  else if 20000 ∈ ports then some .dnp3
  else none

def ParsedPacket.appProtocolHint (packet : ParsedPacket) : Option Service :=
  match packet.transport with
  | .tcp tcp => hintOfPorts [tcp.srcPort, tcp.dstPort]
  | .udp srcPort dstPort => hintOfPorts [srcPort, dstPort]
  | .none => none

structure Summary where
  totalPackets : Nat
  totalBytes : Nat
  skippedPackets : Nat
  hosts : SortedMap IpAddr Unit
  protocols : SortedMap Protocol Nat
  services : SortedMap Service Nat

namespace Summary

def new : Summary where
  totalPackets := 0
  totalBytes := 0
  skippedPackets := 0
  hosts := .empty
  protocols := .empty
  services := .empty

/-- The ports of a packet may name no service. -/
def countService (services : SortedMap Service Nat) :
    Option Service → Checked (SortedMap Service Nat)
  | some service => do
    let r ← countEntry 64 services service
    .ok r.1
  | none => .ok services

/-- `packetLen` is the length of the packet on the wire. -/
def ingest (s : Summary) (packet : ParsedPacket) (packetLen : Nat) : Checked Summary := do
  let totalBytes ← checkedAdd 64 s.totalBytes packetLen
  let protocols ← countEntry 64 s.protocols packet.protocol
  let services ← countService s.services packet.appProtocolHint
  .ok { s with
    totalPackets := saturatingInc 64 s.totalPackets
    totalBytes := totalBytes
    hosts := (s.hosts.insert packet.srcIp ()).insert packet.dstIp ()
    protocols := protocols.1
    services := services }

/-- In the order of the addresses. -/
def uniqueHosts (s : Summary) : List IpAddr := s.hosts.entries.map Prod.fst

/-! ## The totals of a capture -/

/-- The counters of a map are those of the packets by a key that some of them have. -/
def Counts {κ : Type} [LinearOrder κ] (key : ParsedPacket × Nat → Option κ)
    (packets : List (ParsedPacket × Nat)) (counts : SortedMap κ Nat) : Prop :=
  ∀ k, (counts.get? k).getD 0 = packets.countP fun p => key p = some k

section Counts

variable {κ : Type} [LinearOrder κ] {key : ParsedPacket × Nat → Option κ}
  {packets : List (ParsedPacket × Nat)} {counts : SortedMap κ Nat}

theorem Counts.skip (h : Counts key packets counts) {p : ParsedPacket × Nat} (hp : key p = none) :
    Counts key (packets ++ [p]) counts := by
  intro k
  rw [countP_snoc, h k]
  simp [hp]

theorem Counts.count (h : Counts key packets counts) (hroom : packets.length + 1 < 2 ^ 64)
    {p : ParsedPacket × Nat} {k : κ} (hp : key p = some k) :
    Returns (countEntry 64 counts k) (fun r => Counts key (packets ++ [p]) r.1) := by
  have hle : CountsLe packets.length counts := fun k' => by
    rw [h k']
    exact List.countP_le_length
  obtain ⟨r, hr⟩ := countEntry_returns hle hroom k
  obtain ⟨hcount, hmap⟩ := countEntry_eq_ok hr
  refine ⟨r, hr, fun k' => ?_⟩
  rw [countP_snoc, hmap]
  by_cases hk : k' = k
  · rw [hk, counts.get?_insert_self, Option.getD_some, hcount, h k]
    simp [hp]
  · rw [counts.get?_insert_of_ne _ hk, h k']
    simp [hp, Ne.symm hk]

end Counts

structure Totals (packets : List (ParsedPacket × Nat)) (s : Summary) : Prop where
  size : s.totalPackets = packets.length
  bytes : s.totalBytes = (packets.map Prod.snd).sum
  hosts : ∀ ip, s.hosts.get? ip = some () ↔ ∃ p ∈ packets, ip = p.1.srcIp ∨ ip = p.1.dstIp
  protocols : Counts (fun p => some p.1.protocol) packets s.protocols
  services : Counts (fun p => p.1.appProtocolHint) packets s.services

theorem totals_new : Totals [] new where
  size := rfl
  bytes := rfl
  hosts ip := by simp [new]
  protocols k := by simp [new]
  services k := by simp [new]

theorem Totals.ingest {packets : List (ParsedPacket × Nat)} {s : Summary} (h : Totals packets s)
    {p : ParsedPacket × Nat} (hsize : packets.length + 1 < 2 ^ 64)
    (hbytes : ((packets ++ [p]).map Prod.snd).sum < 2 ^ 64) :
    Returns (s.ingest p.1 p.2) (Totals (packets ++ [p])) := by
  have hsum : s.totalBytes + p.2 = ((packets ++ [p]).map Prod.snd).sum := by
    rw [h.bytes]
    simp
  obtain ⟨protocols, hprotocols, hcounts⟩ := h.protocols.count hsize (p := p) rfl
  obtain ⟨services, hservices, hkept⟩ : Returns (countService s.services p.1.appProtocolHint)
      (Counts (fun p => p.1.appProtocolHint) (packets ++ [p])) := by
    cases hhint : p.1.appProtocolHint with
    | none => exact .pure (h.services.skip hhint)
    | some service => exact (h.services.count hsize hhint).bind fun r hr => .pure hr
  refine ⟨_, bind_eq_ok.mpr ⟨_, checkedAdd_of_lt (hsum ▸ hbytes), bind_eq_ok.mpr ⟨_, hprotocols,
    bind_eq_ok.mpr ⟨_, hservices, rfl⟩⟩⟩, ?_, ?_, fun ip => ?_, hcounts, hkept⟩
  · rw [List.length_append, List.length_singleton, ← h.size]
    exact Nat.min_eq_left (by rw [h.size]; omega)
  · exact hsum
  · have hlater : (∃ q ∈ packets ++ [p], ip = q.1.srcIp ∨ ip = q.1.dstIp) ↔
        (∃ q ∈ packets, ip = q.1.srcIp ∨ ip = q.1.dstIp) ∨ ip = p.1.srcIp ∨ ip = p.1.dstIp := by
      simp only [List.mem_append, List.mem_singleton, or_and_right, exists_or, exists_eq_left]
    rw [hlater, ← h.hosts ip]
    by_cases hdst : ip = p.1.dstIp
    · simp [hdst, SortedMap.get?_insert_self]
    · by_cases hsrc : ip = p.1.srcIp
      · rw [SortedMap.get?_insert_of_ne _ _ hdst, hsrc, SortedMap.get?_insert_self]
        simp
      · rw [SortedMap.get?_insert_of_ne _ _ hdst, SortedMap.get?_insert_of_ne _ _ hsrc]
        simp [hdst, hsrc]

/-- Below 2^64 packets and bytes, the summary of a capture has the totals of its packets. -/
theorem run_ingest (packets : List (ParsedPacket × Nat)) (hsize : packets.length < 2 ^ 64)
    (hbytes : (packets.map Prod.snd).sum < 2 ^ 64) :
    Returns (run (fun (s : Summary) p => s.ingest p.1 p.2) new packets) (Totals packets) := by
  refine run_returns packets totals_new fun pre p s hpre _ h => ?_
  obtain ⟨post, rfl⟩ := hpre
  refine h.ingest ?_ ?_
  · simp only [List.length_append, List.length_singleton] at hsize
    omega
  · simp only [List.map_append, List.sum_append] at hbytes ⊢
    omega

end Summary

end Wirerust
