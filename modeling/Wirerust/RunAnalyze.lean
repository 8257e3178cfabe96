import Wirerust.AnalyzeLoop
import Wirerust.Wiring

/-!
`run_analyze` (`main.rs`) from the command line to the findings.

The options are those of `analyze` that decide on the analysis, with the bounds that the parser of
the command line has checked. A target is what `resolve_targets` gives for it, its files already
read. Warnings, progress bars, the summaries of the analyzers and the reporters are left out.
-/

namespace Wirerust.RunAnalyze

open Lib Wirerust.Analyzer Wirerust.Decoder Wirerust.Dispatcher Wirerust.Engine
  Wirerust.Pipelines Wirerust.Wiring
open Wirerust.Capture (DataLink RawPacket)

/-! ## The command line -/

/-- `Cli` and `Commands::Analyze`; `--all` has been spread over the flags. -/
structure Options where
  enableDns : Bool
  enableHttp : Bool
  enableTls : Bool
  enableModbus : Bool
  modbusWriteBurstThreshold : UInt32
  modbusWriteSustainedThreshold : UInt32
  enableDnp3 : Bool
  dnp3DirectOperateThreshold : UInt32
  enableArp : Bool
  arpSpoofThreshold : UInt32
  arpStormRate : UInt32
  enableEnip : Bool
  enipWriteBurstThreshold : UInt32
  enipErrorBurstThreshold : UInt32
  enableIec104 : Bool
  coverageGaps : Bool
  reassemble : Bool
  noReassemble : Bool
  /-- In MiB, as is the next one. -/
  reassemblyDepth : Nat
  reassemblyMemcap : Nat
  overlapThreshold : Option UInt32
  smallSegmentThreshold : Option UInt32
  smallSegmentMaxBytes : Option UInt16
  smallSegmentIgnorePorts : Option (List UInt16)
  outOfWindowThreshold : Option UInt32
  flowTimeout : Nat
  depth_pos : 0 < reassemblyDepth
  memcap_pos : 0 < reassemblyMemcap

namespace Options

variable (o : Options)

/-- The check of the thresholds: the message of the first that is zero. -/
def refusal : Option String :=
  if o.modbusWriteBurstThreshold = 0 then
    some "--modbus-write-burst-threshold must be >= 1 (got 0)"
  else if o.modbusWriteSustainedThreshold = 0 then
    some "--modbus-write-sustained-threshold must be >= 1 (got 0)"
  else if o.arpStormRate = 0 then some "--arp-storm-rate must be >= 1 (got 0)"
  else if o.arpSpoofThreshold = 0 then some "--arp-spoof-threshold must be >= 1 (got 0)"
  else none

def needsReassembly : Bool :=
  o.reassemble || o.enableHttp || o.enableTls || o.enableModbus || o.enableDnp3 ||
    o.enableEnip || o.enableIec104

/-- There is a reassembler. -/
def streams : Bool := o.needsReassembly && !o.noReassemble

def flags : Flags := ⟨o.enableDns, o.enableArp, o.coverageGaps⟩

/-- Depth and memory cap are checked products, in the release profile too. -/
def reassemblyConfig : Checked ReassemblyConfig := do
  let maxDepth ← checkedProduct 64 o.reassemblyDepth 1048576
  let memcap ← checkedProduct 64 o.reassemblyMemcap 1048576
  let base := ReassemblyConfig.default
  .ok { base with
    maxDepth := maxDepth
    memcap := memcap
    overlapAlertThreshold :=
      (o.overlapThreshold.map UInt32.toNat).getD base.overlapAlertThreshold
    smallSegmentAlertThreshold :=
      (o.smallSegmentThreshold.map UInt32.toNat).getD base.smallSegmentAlertThreshold
    smallSegmentMaxBytes :=
      (o.smallSegmentMaxBytes.map UInt16.toNat).getD base.smallSegmentMaxBytes
    smallSegmentIgnorePorts := o.smallSegmentIgnorePorts.getD base.smallSegmentIgnorePorts
    outOfWindowAlertThreshold :=
      (o.outOfWindowThreshold.map UInt32.toNat).getD base.outOfWindowAlertThreshold
    flowTimeoutSecs := UInt32.ofNat (min o.flowTimeout (2 ^ 32 - 1)) }

def reassembler : Checked (Option TcpReassembler) :=
  if o.streams then do
    let config ← o.reassemblyConfig
    let reasm ← TcpReassembler.new config
    .ok (some reasm)
  else .ok none

/-- An analyzer of streams is made only if there is reassembly. -/
def given {α : Type} (enabled : Bool) (analyzer : α) : Option α :=
  if enabled && !o.noReassemble then some analyzer else none

def setup (libs : Libraries) : Setup (analyzers libs) where
  http := o.given o.enableHttp Http.HttpAnalyzer.new
  tls := o.given o.enableTls Tls.TlsAnalyzer.new
  modbus := o.given o.enableModbus (o.modbusWriteBurstThreshold, o.modbusWriteSustainedThreshold)
  dnp3 := o.given o.enableDnp3 o.dnp3DirectOperateThreshold
  enip := o.given o.enableEnip (.new o.enipWriteBurstThreshold o.enipErrorBurstThreshold)
  iec104 := o.given o.enableIec104 .new
  maxClassificationAttempts := defaultMaxClassificationAttempts
  coverageGaps := o.coverageGaps

def start (libs : Libraries) (reassembler : Option TcpReassembler) : Analysis (analyzers libs) :=
  .start (.new o.arpSpoofThreshold o.arpStormRate) reassembler (o.setup libs).dispatcher

end Options

/-! ## The loop -/

section Loop

variable {a : Analyzers} (lib : Etherparse) (flags : Flags) (ord : Orders)

/-- `decode_packet`, and what the arms of the loop make of its result. -/
def onPacket (datalink : DataLink) (s : Analysis a) (raw : RawPacket) : Checked (Analysis a) := do
  let decoded ← decodePacket lib raw.data datalink
  analyzePacket (fun _ _ => decoded) flags ord datalink s raw

def onFile (s : Analysis a) : CaptureFile → Checked (Analysis a)
  | .error _ => .ok { s with anyError := true }
  | .ok source =>
    if source.packets.isEmpty then .ok s
    else run (onPacket lib flags ord source.datalink) s source.packets

/-- What `resolve_targets` gives for a target. -/
abbrev Target := Except String (List CaptureFile)

/-- A target that cannot be resolved ends everything. -/
def onTargets (s : Analysis a) : List Target → Checked (Except String (Analysis a))
  | [] => .ok (.ok s)
  | .error message :: _ => .ok (.error message)
  | .ok files :: targets => do
    let s ← run (onFile lib flags ord) s files
    onTargets s targets

end Loop

/-! ## After the loop -/

section Conclude

variable {libs : Libraries}

def finalizeStreams (ord : Orders) (s : Analysis (analyzers libs)) :
    Checked (Analysis (analyzers libs)) :=
  match s.reassembler with
  | none => .ok s
  | some reasm => do
    let reasm' ← finalize ord.iter reasm
    let dispatcher ←
      run CoverageGaps.handle s.dispatcher (reasm'.events.drop reasm.events.length)
    .ok { s with
      reassembler := some reasm'
      dispatcher := dispatcher
      allFindings := s.allFindings ++ reasm'.findings }

/-- The findings of an analyzer that may not be there. -/
def findingsOf {σ : Type} (findings : σ → List Finding) : Option σ → List Finding
  | some s => findings s
  | none => []

/-- The findings of the six analyzers, in the order of the report. -/
def streamFindings (d : StreamDispatcher (analyzers libs)) : List Finding :=
  findingsOf (fun t => (stateOf (m := http libs.httparse) t).findings) d.http ++
    findingsOf (fun t => (stateOf (m := tls libs.tlsParser) t).findings) d.tls ++
    findingsOf (fun s => s.findings.kept) d.modbus ++
    findingsOf (fun s => s.findings.kept) d.dnp3 ++
    findingsOf (fun t => (stateOf (m := enip) t).findings.kept) d.enip ++
    findingsOf (fun t => (stateOf (m := iec104) t).findings.kept) d.iec104

def conclude (ord : Orders) (s : Analysis (analyzers libs)) :
    Checked (Analysis (analyzers libs)) := do
  let s ← finalizeStreams ord
    { s with summary := { s.summary with skippedPackets := s.totalDecodeErrors } }
  .ok { s with allFindings := s.allFindings ++ streamFindings s.dispatcher }

/-- What is reported, unless the loop has been left. -/
def report (ord : Orders) :
    Except String (Analysis (analyzers libs)) → Checked (Except String (Analysis (analyzers libs)))
  | .error message => .ok (.error message)
  | .ok s => do
    let s ← conclude ord s
    .ok (.ok s)

/-- An error is what `run_analyze` returns before there is a report. -/
def runAnalyze (lib : Etherparse) (libs : Libraries) (ord : Orders) (o : Options)
    (targets : List Target) : Checked (Except String (Analysis (analyzers libs))) :=
  match o.refusal with
  | some message => .ok (.error message)
  | none => do
    let reassembler ← o.reassembler
    let r ← onTargets lib o.flags ord (o.start libs reassembler) targets
    report ord r

end Conclude

end Wirerust.RunAnalyze
