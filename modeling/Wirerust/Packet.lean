import Mathlib.Algebra.Group.Nat.Defs
import Mathlib.Order.Lattice

/-!
What the decoder hands to the engine: addresses, ports and one parsed packet.

`IpAddr` is ordered as the standard library orders it, every IPv4 address before every IPv6
address and by value within a family, and is displayed as the standard library displays it
(finding texts contain addresses).
-/

namespace Wirerust

inductive IpAddr
  | v4 (addr : BitVec 32)
  | v6 (addr : BitVec 128)
  deriving DecidableEq

namespace IpAddr

/-- The place of an address in the order of all addresses. -/
def rank : IpAddr → Nat
  | .v4 a => a.toNat
  | .v6 a => 2 ^ 32 + a.toNat

theorem rank_lt (ip : IpAddr) : ip.rank < 2 ^ 129 := by
  cases ip with
  | v4 a =>
    have := a.isLt
    simp only [rank]
    omega
  | v6 a =>
    have := a.isLt
    simp only [rank]
    omega

theorem rank_injective : Function.Injective rank := by
  intro a b h
  cases a with
  | v4 a =>
    cases b with
    | v4 b => rw [BitVec.eq_of_toNat_eq h]
    | v6 b =>
      have := a.isLt
      simp only [rank] at h
      omega
  | v6 a =>
    cases b with
    | v4 b =>
      have := b.isLt
      simp only [rank] at h
      omega
    | v6 b =>
      simp only [rank] at h
      rw [BitVec.eq_of_toNat_eq (Nat.add_left_cancel h)]

instance : LinearOrder IpAddr := LinearOrder.lift' rank rank_injective

/-- Byte `i` of an address of `n` bytes, the most significant one first. -/
def octet (n addr i : Nat) : Nat := addr / 256 ^ (n - 1 - i) % 256

def showV4 (addr : Nat) : String :=
  ".".intercalate ((List.range 4).map fun i => toString (octet 4 addr i))

def hexDigits (n : Nat) : String := String.ofList (Nat.toDigits 16 n)

/-- The eight 16-bit groups of an IPv6 address. -/
def groups (addr : Nat) : List Nat := (List.range 8).map fun i => addr / 65536 ^ (7 - i) % 65536

/-- The first longest run of zero groups, as its start and length. -/
def zeroRun : List Nat → Nat → Nat × Nat → Nat × Nat → Nat × Nat
  | [], _, _, longest => longest
  | g :: gs, i, (start, len), longest =>
    if g = 0 then
      let current := (if len = 0 then i else start, len + 1)
      zeroRun gs (i + 1) current (if current.2 > longest.2 then current else longest)
    else
      zeroRun gs (i + 1) (0, 0) longest

def showGroups (gs : List Nat) : String := ":".intercalate (gs.map hexDigits)

def showV6 (addr : Nat) : String :=
  let gs := groups addr
  if addr / 2 ^ 32 = 0xffff then
    "::ffff:" ++ showV4 (addr % 2 ^ 32)
  else
    let (start, len) := zeroRun gs 0 (0, 0) (0, 0)
    if len > 1 then
      showGroups (gs.take start) ++ "::" ++ showGroups (gs.drop (start + len))
    else
      showGroups gs

def display : IpAddr → String
  | .v4 a => showV4 a.toNat
  | .v6 a => showV6 a.toNat

end IpAddr

inductive Protocol
  | tcp
  | udp
  | icmp
  | other (number : UInt8)
  deriving DecidableEq

/-- The TCP header fields the engine reads. -/
structure TcpFields where
  srcPort : UInt16
  dstPort : UInt16
  seq : UInt32
  syn : Bool
  ack : Bool
  fin : Bool
  rst : Bool
  deriving DecidableEq

inductive TransportInfo
  | tcp (fields : TcpFields)
  | udp (srcPort dstPort : UInt16)
  | none
  deriving DecidableEq

structure ParsedPacket where
  srcIp : IpAddr
  dstIp : IpAddr
  protocol : Protocol
  transport : TransportInfo
  payload : List UInt8
  deriving DecidableEq

end Wirerust
