import Wirerust.Capture.Reader
import Wirerust.Analyzer.Arp

/-!
The decoder (`decoder.rs`): a captured frame is an IP packet, an ARP frame or an error.

Frames are cut up by the `etherparse` crate. An `Etherparse` gives what the slicers of the crate
return, and a slice is what its accessors give. The length of an IP packet on the wire stands
beside the packet.
-/

namespace Wirerust.Decoder

open Lib Wirerust.Analyzer Wirerust.Capture
open Wirerust.Arp (Mac Ipv4 ArpFrame)

/-! ## What the crate gives -/

structure ArpPacketSlice where
  hwAddrType : UInt16
  protoAddrType : UInt16
  hwAddrSize : UInt8
  protoAddrSize : UInt8
  operation : UInt16
  senderHwAddr : List UInt8
  senderProtocolAddr : List UInt8
  targetHwAddr : List UInt8
  targetProtocolAddr : List UInt8
  deriving DecidableEq

/-- `NetSlice` and `LaxNetSlice`; the number is that of the payload behind the extension headers. -/
inductive NetSlice
  | ipv4 (source destination : Ipv4) (protocol : UInt8)
  | ipv6 (source destination : BitVec 128) (ipNumber : UInt8)
  | arp (slice : ArpPacketSlice)
  deriving DecidableEq

inductive TransportSlice
  | tcp (fields : TcpFields) (payload : List UInt8)
  | udp (sourcePort destinationPort : UInt16) (payload : List UInt8)
  | icmpv4
  | icmpv6
  deriving DecidableEq

inductive LinkSlice
  | ethernet2 (source : Mac)
  | other
  deriving DecidableEq

structure SlicedPacket where
  link : Option LinkSlice
  net : Option NetSlice
  transport : Option TransportSlice
  deriving DecidableEq

/-- A length error or another one, with its text. -/
inductive SliceError
  | len (text : String)
  | other (text : String)
  deriving DecidableEq

inductive Layer
  | arp
  | other
  deriving DecidableEq

structure LaxLinkExtSlice where
  headerLen : Nat
  deriving DecidableEq

structure LaxSlicedPacket where
  link : Option LinkSlice
  linkExts : List LaxLinkExtSlice
  net : Option NetSlice
  transport : Option TransportSlice
  /-- The layer of `stop_err`. -/
  stopLayer : Option Layer
  deriving DecidableEq

/-- The slicers; `arpFromSlice` is the one that they call for the payload of an ARP frame. -/
structure Etherparse where
  fromEthernet : List UInt8 → Except SliceError SlicedPacket
  fromIp : List UInt8 → Except SliceError SlicedPacket
  fromLinuxSll : List UInt8 → Except SliceError SlicedPacket
  laxFromEthernet : List UInt8 → Except String LaxSlicedPacket
  laxFromIp : List UInt8 → Except String LaxSlicedPacket
  laxFromEtherType : UInt16 → List UInt8 → LaxSlicedPacket
  arpFromSlice : List UInt8 → Option ArpPacketSlice
  showDataLink : DataLink → String

/-! ## `decode_packet` -/

inductive DecodedFrame
  | ip (packet : ParsedPacket) (packetLen : Nat)
  | arp (frame : ArpFrame)
  deriving DecidableEq

/-- An error is its message. -/
abbrev Decoded := Except String DecodedFrame

def sllHeaderLen : Nat := 16

abbrev IpTriple := IpAddr × IpAddr × UInt8

/-- The number that bytes stand for, the first one on top. -/
def bigEndian (bytes : List UInt8) : Nat := bytes.foldl (fun n b => 256 * n + b.toNat) 0

/-- `<[u8; n]>::try_from(bytes).expect(..)` -/
def byteArray (n : Nat) (bytes : List UInt8) : Checked (BitVec (8 * n)) :=
  if bytes.length = n then .ok (BitVec.ofNat _ (bigEndian bytes)) else .error .unwrapNone

def extractArpFrame (arp : ArpPacketSlice) (outerSrcMac : Option Mac) (packetLen : Nat) :
    Checked (Option ArpFrame) :=
  if arp.hwAddrType ≠ 1 || arp.protoAddrType ≠ 0x0800 || arp.hwAddrSize ≠ 6 ||
      arp.protoAddrSize ≠ 4 then
    .ok none
  else do
    let senderMac ← byteArray 6 arp.senderHwAddr
    let senderIp ← byteArray 4 arp.senderProtocolAddr
    let targetMac ← byteArray 6 arp.targetHwAddr
    let targetIp ← byteArray 4 arp.targetProtocolAddr
    .ok (some ⟨arp.operation, senderMac, senderIp, targetMac, targetIp, outerSrcMac, packetLen⟩)

def outerSrcMac : Option LinkSlice → Option Mac
  | some (.ethernet2 source) => some source
  | _ => none

def nonEthernetIpv4 : String := "Non-Ethernet/IPv4 ARP frame"

def truncatedArp : String := "truncated ARP frame"

/-- The arm of an ARP slice, the same on both paths. -/
def decodeArp (arp : ArpPacketSlice) (link : Option LinkSlice) (packetLen : Nat) :
    Checked Decoded := do
  match ← extractArpFrame arp (outerSrcMac link) packetLen with
  | some f => .ok (.ok (.arp f))
  | none => .ok (.error nonEthernetIpv4)

/-- The arm of an ARP slice is `unreachable!`. -/
def ipTriple : NetSlice → Checked IpTriple
  | .ipv4 source destination protocol => .ok (.v4 source, .v4 destination, protocol)
  | .ipv6 source destination ipNumber => .ok (.v6 source, .v6 destination, ipNumber)
  | .arp _ => .error .assertion

def strictIpTriple (net : NetSlice) : Checked IpTriple := ipTriple net

def laxIpTriple (net : NetSlice) : Checked IpTriple := ipTriple net

def buildParsed (ip : IpTriple) (transport : Option TransportSlice) : ParsedPacket :=
  let (srcIp, dstIp, ipProtocol) := ip
  match transport with
  | some (.tcp fields payload) => ⟨srcIp, dstIp, .tcp, .tcp fields, payload⟩
  | some (.udp sourcePort destinationPort payload) =>
    ⟨srcIp, dstIp, .udp, .udp sourcePort destinationPort, payload⟩
  | some .icmpv4 => ⟨srcIp, dstIp, .icmp, .none, []⟩
  | some .icmpv6 => ⟨srcIp, dstIp, .icmp, .none, []⟩
  | none => ⟨srcIp, dstIp, .other ipProtocol, .none, []⟩

section Decode

variable (lib : Etherparse)

def unsupportedLinkType (datalink : DataLink) : String :=
  "Unsupported link type: " ++ lib.showDataLink datalink

def parseError (text : String) : String := "Parse error: " ++ text

/-- The strict slicer of a link type, if there is one. -/
def strictSlice (data : List UInt8) (datalink : DataLink) :
    Option (Except SliceError SlicedPacket) :=
  if datalink = .ethernet then some (lib.fromEthernet data)
  else if datalink ∈ [DataLink.raw, .ipv4, .ipv6] then some (lib.fromIp data)
  else if datalink = .linuxSll then some (lib.fromLinuxSll data)
  else none

def laxParse (data : List UInt8) (datalink : DataLink) : Except String LaxSlicedPacket :=
  if datalink = .ethernet then (lib.laxFromEthernet data).mapError parseError
  else if datalink ∈ [DataLink.raw, .ipv4, .ipv6] then (lib.laxFromIp data).mapError parseError
  else if datalink = .linuxSll then
    match data[sllHeaderLen - 2]?, data[sllHeaderLen - 1]? with
    | some hi, some lo => .ok (lib.laxFromEtherType (beU16 hi lo) (data.drop sllHeaderLen))
    | _, _ => .error (parseError "SLL header truncated")
  else .error (unsupportedLinkType lib datalink)

/-- Where the ARP header of an Ethernet frame begins. -/
def arpOffset (lax : LaxSlicedPacket) : Option Nat :=
  match lax.link with
  | some (.ethernet2 _) => some (14 + (lax.linkExts.map LaxLinkExtSlice.headerLen).sum)
  | _ => none

/-- There are eight bytes, and they are not those of an Ethernet/IPv4 header. -/
def isMalformed : List UInt8 → Bool
  | t0 :: t1 :: p0 :: p1 :: hlen :: plen :: _ :: _ :: _ =>
    beU16 t0 t1 ≠ 0x0001 || beU16 p0 p1 ≠ 0x0800 || hlen ≠ 6 || plen ≠ 4
  | _ => false

/-- The message for a frame in which lax slicing finds no network layer. -/
def stoppedError (data : List UInt8) (lax : LaxSlicedPacket) : String :=
  if lax.stopLayer = some .arp then
    if (arpOffset lax).any fun offset => isMalformed (data.drop offset) then nonEthernetIpv4
    else truncatedArp
  else "No IP layer found"

def decodeLax (data : List UInt8) (datalink : DataLink) : Checked Decoded :=
  match laxParse lib data datalink with
  | .error text => .ok (.error text)
  | .ok lax =>
    match lax.net with
    | some (.arp arp) => decodeArp arp lax.link data.length
    | some net => do
      let ip ← laxIpTriple net
      .ok (.ok (.ip (buildParsed ip lax.transport) data.length))
    | none => .ok (.error (stoppedError data lax))

def decodePacket (data : List UInt8) (datalink : DataLink) : Checked Decoded :=
  match strictSlice lib data datalink with
  | none => .ok (.error (unsupportedLinkType lib datalink))
  | some (.ok slice) =>
    match slice.net with
    | some (.arp arp) => decodeArp arp slice.link data.length
    | some net => do
      let ip ← strictIpTriple net
      .ok (.ok (.ip (buildParsed ip slice.transport) data.length))
    | none => .ok (.error "No IP layer found")
  | some (.error (.len _)) => decodeLax lib data datalink
  | some (.error (.other text)) => .ok (.error (parseError text))

end Decode

end Wirerust.Decoder
