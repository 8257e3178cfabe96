import Mathlib.Data.List.Infix
import Wirerust.Analyzer.Common

/-!
The capture reader (`reader.rs`).

The `pcap-file` crate is the parameter `PcapFile`: its pcapng parser hands out raw blocks, and its
classic reader a header and the records until the end. What is read from is a list of chunks, of
which every read takes from the first one only. Every index into a body is behind a test of its
length, and so is never out of range.
-/

namespace Wirerust.Capture

open Wirerust.Analyzer

/-- An `anyhow` error: the message, behind its contexts. -/
abbrev Error := List String

def fail {α : Type} (message : String) : Except Error α := .error [message]

def context {α : Type} (message : String) : Except Error α → Except Error α
  | .ok a => .ok a
  | .error e => .error (message :: e)

/-! ## What the crate gives -/

/-- `DataLink::from(code)`. -/
structure DataLink where
  code : UInt32
  deriving DecidableEq, Repr

namespace DataLink

def null : DataLink := ⟨0⟩

def ethernet : DataLink := ⟨1⟩

def raw : DataLink := ⟨101⟩

def linuxSll : DataLink := ⟨113⟩

def ipv4 : DataLink := ⟨228⟩

def ipv6 : DataLink := ⟨229⟩

/-- The link types of both branches. -/
def supported (link : DataLink) : Bool := link ∈ [ethernet, raw, ipv4, ipv6, linuxSll]

end DataLink

/-- What `to_string` gives, and the message if it is an `InvalidField`. -/
structure PcapError where
  display : String
  invalidField : Option String

inductive SectionEndianness
  | bigEndian
  | littleEndian
  deriving DecidableEq, Repr

structure RawBlock where
  type : UInt32
  body : List UInt8
  deriving DecidableEq

inductive TsResolution
  | microSecond
  | nanoSecond
  deriving DecidableEq, Repr

structure RawPcapPacket where
  tsSec : UInt32
  tsFrac : UInt32
  data : List UInt8

/-- A classic capture that has been opened; `rawPackets` are the results of `next_raw_packet`
until it gives `None`. -/
structure PcapReader where
  datalink : DataLink
  tsResolution : TsResolution
  rawPackets : List (Except PcapError RawPcapPacket)

/-! ## Reading -/

/-- A `Read` that returns its chunks one after the other, and then the end. -/
structure Source where
  chunks : List (List UInt8)
  nonempty : ∀ chunk ∈ chunks, chunk ≠ []

def Source.bytes (s : Source) : List UInt8 := s.chunks.flatten

/-- `BufReader` with what it has buffered. -/
structure BufReader where
  buffer : List UInt8
  inner : List (List UInt8)

namespace BufReader

def capacity : Nat := 8192

def new (reader : Source) : BufReader := ⟨[], reader.chunks⟩

/-- One read of the inner reader if the buffer is empty, and none otherwise. -/
def fillBuf (r : BufReader) : BufReader :=
  if r.buffer.isEmpty then
    match r.inner with
    | [] => r
    | chunk :: chunks =>
      ⟨chunk.take capacity,
        if chunk.length ≤ capacity then chunks else chunk.drop capacity :: chunks⟩
  else r

/-- All that is left to read, which is what `read_to_end` returns. -/
def readToEnd (r : BufReader) : List UInt8 := r.buffer ++ r.inner.flatten

end BufReader

/-- The `pcap-file` crate. -/
structure PcapFile where
  Parser : Type
  newParser : List UInt8 → Except PcapError (List UInt8 × Parser)
  majorVersion : Parser → UInt16
  endianness : Parser → SectionEndianness
  nextRawBlock : Parser → List UInt8 → Except PcapError (List UInt8 × RawBlock × Parser)
  newReader : BufReader → Except PcapError PcapReader
  showDataLink : DataLink → String

/-! ## Constants -/

def pcapngMagic : List UInt8 := [0x0a, 0x0d, 0x0d, 0x0a]

def classicPcapMagics : List (List UInt8) :=
  [[0xa1, 0xb2, 0xc3, 0xd4], [0xd4, 0xc3, 0xb2, 0xa1], [0xa1, 0xb2, 0x3c, 0x4d],
    [0x4d, 0x3c, 0xb2, 0xa1]]

instance decidableClassicMagic (magic : List UInt8) : Decidable (magic ∈ classicPcapMagics) :=
  inferInstance

def shbBlockType : UInt32 := 0x0a0d0d0a

def idbBlockType : UInt32 := 1

def opbBlockType : UInt32 := 2

def spbBlockType : UInt32 := 3

def epbBlockType : UInt32 := 6

def maxInterfaceTableEntries : Nat := 65535

def idbBodyFixedBytes : Nat := 8

def epbFixedOverheadBytes : Nat := 20

def spbFixedOverheadBytes : Nat := 4

def defaultTsresol : UInt8 := 6

/-! ## Bodies -/

structure InterfaceInfo where
  linktype : DataLink
  ifTsresol : UInt8
  deriving DecidableEq

structure RawPacket where
  timestampSecs : UInt32
  timestampUsecs : UInt32
  data : List UInt8
  deriving DecidableEq

structure PcapSource where
  packets : List RawPacket
  datalink : DataLink
  skippedBlocks : Nat
  opbSkipped : Nat
  isPcapng : Bool
  deriving DecidableEq

/-- The `u16` at an offset. -/
def u16At (endianness : SectionEndianness) (body : List UInt8) (i : Nat) : UInt16 :=
  match endianness with
  | .bigEndian => beU16 (body.getD i 0) (body.getD (i + 1) 0)
  | .littleEndian => leU16 (body.getD i 0) (body.getD (i + 1) 0)

/-- The `u32` at an offset. -/
def u32At (endianness : SectionEndianness) (body : List UInt8) (i : Nat) : UInt32 :=
  let first := (u16At endianness body i).toNat
  let second := (u16At endianness body (i + 2)).toNat
  match endianness with
  | .bigEndian => UInt32.ofNat (65536 * first + second)
  | .littleEndian => UInt32.ofNat (65536 * second + first)

/-- Powers of ten up to the nineteenth, and powers of two up to the 63rd. -/
def ticksPerSec (ifTsresol : UInt8) : Nat :=
  let e := (ifTsresol &&& 0x7f).toNat
  if ifTsresol &&& 0x80 = 0 then
    if e < 20 then 10 ^ e else 2 ^ 64 - 1
  else 2 ^ min e 63

def pcapngTimestampToSecsUsecs (tsHigh tsLow : UInt32) (ifTsresol : UInt8) : UInt32 × UInt32 :=
  let ticks := 2 ^ 32 * tsHigh.toNat + tsLow.toNat
  if ifTsresol = 6 then
    (UInt32.ofNat (min (ticks / 1000000) (2 ^ 32 - 1)), UInt32.ofNat (ticks % 1000000))
  else
    let perSec := ticksPerSec ifTsresol
    (UInt32.ofNat (min (ticks / perSec) (2 ^ 32 - 1)),
      UInt32.ofNat (ticks % perSec * 1000000 / perSec))

def decodeEpbBody (body : List UInt8) (interfaces : List InterfaceInfo)
    (endianness : SectionEndianness) : Except Error RawPacket :=
  if body.length < epbFixedOverheadBytes then
    fail ("pcapng EPB body too short: expected at least " ++ toString epbFixedOverheadBytes ++
      " bytes, got " ++ toString body.length ++ " (E-INP-008: body-too-short)")
  else
    let interfaceId := u32At endianness body 0
    if interfaces.isEmpty then
      fail ("pcapng Enhanced Packet Block encountered before any Interface Description Block: " ++
        "EPB references interface_id=" ++ toString interfaceId ++
        " but interface table is empty — no IDB has been parsed (E-INP-009)")
    else
      match interfaces[interfaceId.toNat]? with
      | none =>
        fail ("EPB interface_id=" ++ toString interfaceId ++ " out of range (table size=" ++
          toString interfaces.length ++ ") (E-INP-010)")
      | some iface =>
        let tsHigh := u32At endianness body 4
        let tsLow := u32At endianness body 8
        let capturedLen := (u32At endianness body 12).toNat
        let available := body.length - epbFixedOverheadBytes
        if capturedLen > available then
          fail ("pcapng EPB captured_len " ++ toString capturedLen ++
            " exceeds available body bytes " ++ toString available ++
            " (E-INP-008: captured_len > body extent)")
        else
          let padLen := (4 - capturedLen % 4) % 4
          if epbFixedOverheadBytes + capturedLen + padLen > body.length then
            fail ("pcapng EPB padding-overrun: 20 + " ++ toString capturedLen ++ " + " ++
              toString padLen ++ " > " ++ toString body.length ++
              " (E-INP-008: wirerust body-decode padding overrun; defense-in-depth)")
          else
            let (secs, usecs) := pcapngTimestampToSecsUsecs tsHigh tsLow iface.ifTsresol
            .ok ⟨secs, usecs, (body.drop epbFixedOverheadBytes).take capturedLen⟩

/-- The walk over the options; every turn takes four bytes or more. -/
def walkOptions (endianness : SectionEndianness) : Nat → List UInt8 → Except Error UInt8
  | 0, _ => .ok defaultTsresol
  | turns + 1, remaining =>
    if remaining.length < 4 then .ok defaultTsresol
    else
      let optCode := u16At endianness remaining 0
      let optLen := (u16At endianness remaining 2).toNat
      let rest := remaining.drop 4
      if optCode = 0 then .ok defaultTsresol
      else if optLen > rest.length then
        fail ("IDB options TLV overrun: option code " ++ toString optCode ++ " declares length " ++
          toString optLen ++ " but only " ++ toString rest.length ++
          " bytes remain in the options region (E-INP-008: malformed IDB options TLV)")
      else if optCode = 9 then
        if optLen ≠ 1 then
          fail ("IDB if_tsresol option (code 9) has option_length=" ++ toString optLen ++
            ", expected 1 (E-INP-008: malformed if_tsresol TLV; F-M5 / ADR-009 rev 9)")
        else .ok (rest.getD 0 0)
      else walkOptions endianness turns (rest.drop ((optLen + 3) / 4 * 4))

def parseIdbOptions (body : List UInt8) (endianness : SectionEndianness) : Except Error UInt8 :=
  if body.length > idbBodyFixedBytes then
    let opts := body.drop idbBodyFixedBytes
    walkOptions endianness opts.length opts
  else .ok defaultTsresol

/-- The number of bytes that are there is cut to 32 bits first. -/
def spbCapturedLen (originalLen : UInt32) (body : List UInt8) : Nat :=
  min originalLen.toNat ((body.length - spbFixedOverheadBytes) % 2 ^ 32)

/-! ## The block walk -/

/-- The variables of the loop. -/
structure Walk where
  packets : List RawPacket := []
  interfaces : List InterfaceInfo := []
  packetsEmitted : Nat := 0
  skippedBlocks : Nat := 0
  opbSkipped : Nat := 0
  blockSeq : Nat := 1

def unsupportedLink (crate : PcapFile) (link : DataLink) : String :=
  "Unsupported pcap link type: " ++ crate.showDataLink link ++
    ". Supported: Ethernet (1), Raw IP (101), Linux Cooked (113), IPv4 (228), IPv6 (229)"

def Walk.firstLink (w : Walk) : Option DataLink := w.interfaces.head?.map InterfaceInfo.linktype

def linkConflict (crate : PcapFile) (w : Walk) (newDl : DataLink) : String :=
  "pcapng multi-interface link-type conflict: interface 0 has " ++
    crate.showDataLink (w.firstLink.getD newDl) ++ ", interface " ++
    toString w.interfaces.length ++ " has " ++ crate.showDataLink newDl ++
    " (hint: this commonly occurs with 'tcpdump -i any' captures that mix link types; " ++
    "wirerust requires a single link type per file) (E-INP-011)"

/-- An interface, after a test of its place, of the room for it, of its body and of its link. -/
def onIdb (crate : PcapFile) (endianness : SectionEndianness) (w : Walk) (body : List UInt8) :
    Except Error Walk :=
  if w.packetsEmitted > 0 then
    fail ("pcapng interface description block after first packet block — " ++
      "unsupported ordering (E-INP-013)")
  else if w.interfaces.length ≥ maxInterfaceTableEntries then
    fail ("pcapng interface table too large: exceeds limit of " ++
      toString maxInterfaceTableEntries ++ " interfaces (E-INP-015)")
  else if body.length < idbBodyFixedBytes then
    fail ("pcapng IDB body too short: expected at least " ++ toString idbBodyFixedBytes ++
      " bytes, got " ++ toString body.length ++ " (E-INP-008: body-too-short)")
  else
    let newDl : DataLink := ⟨(u16At endianness body 0).toUInt32⟩
    if newDl.supported = false then fail (unsupportedLink crate newDl)
    else if w.firstLink.any (· ≠ newDl) then fail (linkConflict crate w newDl)
    else do
      let ifTsresol ← context "IDB options TLV parse failed (E-INP-008)"
        (parseIdbOptions body endianness)
      .ok { w with interfaces := w.interfaces ++ [⟨newDl, ifTsresol⟩] }

/-- A packet goes out. -/
def Walk.emit (w : Walk) (packet : RawPacket) : Walk :=
  { w with
    packets := w.packets ++ [packet]
    packetsEmitted := saturatingInc 32 w.packetsEmitted }

def onEpb (endianness : SectionEndianness) (w : Walk) (body : List UInt8) : Except Error Walk := do
  let packet ← decodeEpbBody body w.interfaces endianness
  .ok (w.emit packet)

/-- The packet of a Simple Packet Block has no time. -/
def spbPacket (endianness : SectionEndianness) (body : List UInt8) : RawPacket :=
  ⟨0, 0, (body.drop spbFixedOverheadBytes).take (spbCapturedLen (u32At endianness body 0) body)⟩

def onSpb (endianness : SectionEndianness) (w : Walk) (body : List UInt8) : Except Error Walk :=
  if w.interfaces.isEmpty then
    fail ("pcapng Simple Packet Block encountered before any Interface Description Block: " ++
      "SPB encountered but interface table is empty — no IDB has been parsed (E-INP-009)")
  else if body.length < spbFixedOverheadBytes then
    fail ("Failed to read pcapng Simple Packet Block: body too short for SPB fixed fields: " ++
      "expected at least " ++ toString spbFixedOverheadBytes ++ " bytes, got " ++
      toString body.length ++ " (E-INP-008: body-too-short)")
  else .ok (w.emit (spbPacket endianness body))

/-- The arms of the skipped blocks do the same, but for the obsolete packet block. -/
def onBlock (crate : PcapFile) (endianness : SectionEndianness) (w : Walk) (block : RawBlock) :
    Except Error Walk :=
  if block.type = shbBlockType then
    fail ("pcapng multi-section files are not supported (second Section Header Block at block #" ++
      toString w.blockSeq ++ ") (hint: split the capture into single-section files, or re-save " ++
      "with 'mergecap -w out.pcapng <file>' or 'editcap' which emit single-section pcapng) " ++
      "(E-INP-012)")
  else if block.type = idbBlockType then onIdb crate endianness w block.body
  else if block.type = epbBlockType then onEpb endianness w block.body
  else if block.type = spbBlockType then onSpb endianness w block.body
  else if block.type = opbBlockType then
    .ok { w with
      skippedBlocks := saturatingInc 32 w.skippedBlocks
      opbSkipped := saturatingInc 32 w.opbSkipped }
  else .ok { w with skippedBlocks := saturatingInc 32 w.skippedBlocks }

def hasText (text part : String) : Bool := part.toList <:+: text.toList

def shbError (e : PcapError) : Error :=
  match e.invalidField with
  | some msg =>
    if hasText msg "block length < 16" then
      ["pcapng SHB body too short: " ++ e.display ++ " (E-INP-008: SHB body decode failure)"]
    else if hasText msg "invalid magic number" then
      ["pcapng SHB invalid BOM (unrecognized byte-order mark): " ++ e.display ++
        " (E-INP-008: invalid BOM)"]
    else framing
  | none => framing
where
  framing : Error :=
    ["pcapng SHB parse failed: " ++ e.display ++ " (E-INP-010: crate framing rejection)"]

def blockError (e : PcapError) : Error :=
  if hasText e.display "block length < 8" then
    ["pcapng IDB body too short: body < 8 IDB fixed-field bytes (E-INP-008: body-too-short; " ++
      "constructible window 12 ≤ btl < 20)"]
  else if hasText e.display "reserved != 0" then
    ["pcapng IDB reserved field is non-zero (structural IDB error) " ++
      "(E-INP-008: pcapng IDB reserved field must be zero)"]
  else
    ["pcapng block framing error: " ++ e.display ++ " (E-INP-010: crate framing rejection)"]

/-- The loop. A turn that does not shorten what is left ends it, so there are never more turns than
bytes. -/
def walkBlocks (crate : PcapFile) (endianness : SectionEndianness) :
    Nat → crate.Parser → List UInt8 → Walk → Except Error Walk
  | 0, _, _, w => .ok w
  | turns + 1, parser, src, w =>
    if src.isEmpty then .ok w
    else do
      let (rem, block, parser) ← (crate.nextRawBlock parser src).mapError blockError
      if rem.length ≥ src.length then
        fail ("pcapng block walk stalled: no forward progress at block #" ++
          toString w.blockSeq ++ " (rem=" ++ toString rem.length ++ " bytes, prev=" ++
          toString src.length ++ " bytes) (E-INP-010: framing anomaly, zero-advance guard)")
      else
        let w := { w with blockSeq := saturatingInc 32 w.blockSeq }
        let w ← onBlock crate endianness w block
        walkBlocks crate endianness turns parser rem w

def Walk.source (w : Walk) : PcapSource where
  packets := w.packets
  datalink := w.firstLink.getD .null
  skippedBlocks := w.skippedBlocks
  opbSkipped := w.opbSkipped
  isPcapng := true

def readPcapngCrate (crate : PcapFile) (raw : List UInt8) : Except Error PcapSource := do
  let (src, parser) ← (crate.newParser raw).mapError shbError
  if crate.majorVersion parser ≠ 1 then
    fail ("Unsupported pcapng major version: " ++ toString (crate.majorVersion parser) ++
      " (only major version 1 is supported; E-INP-008: semantic failure)")
  else
    let w ← walkBlocks crate (crate.endianness parser) src.length parser src {}
    .ok w.source

/-! ## `from_pcap_reader` -/

def usecs (resolution : TsResolution) (frac : UInt32) : UInt32 :=
  match resolution with
  | .microSecond => frac
  | .nanoSecond => frac / 1000

/-- The loop over the records. -/
def readRecords (resolution : TsResolution) :
    List (Except PcapError RawPcapPacket) → Except Error (List RawPacket)
  | [] => .ok []
  | record :: records => do
    let packet ← context "Failed to read packet" (record.mapError fun e => [e.display])
    let packets ← readRecords resolution records
    .ok (⟨packet.tsSec, usecs resolution packet.tsFrac, packet.data⟩ :: packets)

def readClassic (crate : PcapFile) (bufReader : BufReader) : Except Error PcapSource := do
  let reader ← context "Failed to parse pcap header"
    ((crate.newReader bufReader).mapError fun e => [e.display])
  if reader.datalink.supported = false then fail (unsupportedLink crate reader.datalink)
  else
    let packets ← readRecords reader.tsResolution reader.rawPackets
    .ok ⟨packets, reader.datalink, 0, 0, false⟩

/-- The probe has the bytes of one read, and takes none of them away. -/
def fromPcapReader (crate : PcapFile) (reader : Source) : Except Error PcapSource :=
  let bufReader := (BufReader.new reader).fillBuf
  let filled := bufReader.buffer
  if filled.length < 4 then
    fail ("stream too short: expected at least 4 bytes for pcap magic, got " ++
      toString filled.length)
  else
    let magic := filled.take 4
    if magic = pcapngMagic then readPcapngCrate crate bufReader.readToEnd
    else if magic ∈ classicPcapMagics then readClassic crate bufReader
    else
      fail ("unrecognized pcap magic: " ++
        " ".intercalate (magic.map fun b => hexUpper 2 b.toNat))

end Wirerust.Capture
