import Mathlib.Data.List.Sort
import Wirerust.Findings

/-!
The reassembly engine (`mod.rs`, `lifecycle.rs`, `config.rs`, `stats.rs`).

The calls the engine makes to its `StreamHandler` are kept in `events`, oldest first. The
engine never reads anything back from the handler, so the list is all a handler can see.
Three further events are no handler calls, they mark what happens to a flow in between: its
creation, each packet that reaches it, and a packet dropped because the table is full.

The flow table is a `HashMap`, and where the code iterates over it the order is unspecified.
An `IterOrder` fixes the order of every iteration of a run, and every theorem is about an
arbitrary one.
-/

namespace Wirerust.Engine

open Lib Wirerust.Segment Wirerust.Flow

structure ReassemblyConfig where
  maxDepth : Nat
  memcap : Nat
  flowTimeoutSecs : UInt32
  maxFlows : Nat
  maxSegmentsPerDirection : Nat
  maxReceiveWindow : Nat
  overlapAlertThreshold : Nat
  smallSegmentAlertThreshold : Nat
  smallSegmentMaxBytes : Nat
  smallSegmentIgnorePorts : List UInt16
  outOfWindowAlertThreshold : Nat
  expirySweepInterval : Nat
  idlePacketThreshold : Nat
  deriving DecidableEq

def ReassemblyConfig.default : ReassemblyConfig where
  maxDepth := 10 * 1024 * 1024
  memcap := 1024 * 1024 * 1024
  flowTimeoutSecs := 300
  maxFlows := 100000
  maxSegmentsPerDirection := 10000
  maxReceiveWindow := 1048576
  overlapAlertThreshold := 50
  smallSegmentAlertThreshold := 100
  smallSegmentMaxBytes := 16
  smallSegmentIgnorePorts := [23, 513]
  outOfWindowAlertThreshold := 100
  expirySweepInterval := 8192
  idlePacketThreshold := 65536

def ReassemblyConfig.limits (c : ReassemblyConfig) : Limits :=
  ⟨c.maxDepth, c.maxSegmentsPerDirection, c.maxReceiveWindow⟩

/-- The counters; all saturate except `bytesReassembled`. -/
structure ReassemblyStats where
  packetsProcessed : Nat := 0
  packetsTcp : Nat := 0
  packetsSkippedNonTcp : Nat := 0
  flowsTotal : Nat := 0
  flowsPartial : Nat := 0
  flowsExpired : Nat := 0
  flowsRst : Nat := 0
  flowsFin : Nat := 0
  segmentsInserted : Nat := 0
  segmentsDuplicates : Nat := 0
  segmentsOverlaps : Nat := 0
  segmentsOutOfWindow : Nat := 0
  segmentsSegmentLimit : Nat := 0
  segmentsDepthExceeded : Nat := 0
  bytesReassembled : Nat := 0
  evictions : Nat := 0
  droppedFindings : Nat := 0
  deriving DecidableEq

/-- `saturating_add(1)` on a `u64` counter. -/
abbrev bump (n : Nat) : Nat := saturatingInc 64 n

inductive Event
  | flowCreated (key : FlowKey)
  | packet (key : FlowKey) (src dst : Endpoint) (tcp : TcpFields) (payload : List UInt8)
  | packetDropped (key : FlowKey)
  | onData (key : FlowKey) (direction : Direction) (data : List UInt8) (offset : Nat)
      (timestamp : UInt32)
  | onFlowClose (key : FlowKey) (reason : CloseReason)
  deriving DecidableEq

structure TcpReassembler where
  config : ReassemblyConfig
  flows : SortedMap FlowKey TcpFlow
  stats : ReassemblyStats
  findings : List Finding
  totalMemory : Nat
  finalized : Bool
  lastExpirySweepSecs : UInt32
  packetIndex : Nat
  /-- How often the flow table has been iterated over. -/
  iterations : Nat
  events : List Event

/-- The order in which the `n`-th iteration over the flow table visits its entries. -/
structure IterOrder where
  visit : Nat → List (FlowKey × TcpFlow) → List (FlowKey × TcpFlow)
  perm : ∀ n l, (visit n l).Perm l

def TcpReassembler.new (config : ReassemblyConfig) : Checked TcpReassembler := do
  assertThat (config.maxDepth > 0)
  assertThat (config.memcap > 0)
  assertThat (config.maxFlows > 0)
  assertThat (config.maxSegmentsPerDirection > 0)
  assertThat (config.maxReceiveWindow > 0)
  .ok {
    config
    flows := .empty
    stats := {}
    findings := []
    totalMemory := 0
    finalized := false
    lastExpirySweepSecs := 0
    packetIndex := 0
    iterations := 0
    events := [] }

def maxFindings : Nat := 10000

/-- The guarded push of all findings but the one of `finalize`. -/
def pushFinding (s : TcpReassembler) (finding : Finding) : TcpReassembler :=
  if s.findings.length < maxFindings then
    { s with findings := s.findings ++ [finding] }
  else
    { s with stats := { s.stats with droppedFindings := bump s.stats.droppedFindings } }

/-! ## Closing flows (`lifecycle.rs`) -/

/-- One `on_data` call, counted before it is made. -/
def onData (s : TcpReassembler) (key : FlowKey) (dir : Direction) (timestamp : UInt32)
    (chunk : Nat × List UInt8) : Checked TcpReassembler := do
  let bytesReassembled ← checkedAdd 64 s.stats.bytesReassembled chunk.2.length
  .ok { s with
    stats := { s.stats with bytesReassembled }
    events := s.events ++ [.onData key dir chunk.2 chunk.1 timestamp] }

/-- The `on_data` calls for the chunks a flush has returned. -/
def deliver (s : TcpReassembler) (key : FlowKey) (dir : Direction)
    (flushed : List (Nat × List UInt8)) (timestamp : UInt32) : Checked TcpReassembler :=
  flushed.foldlM (fun s chunk => onData s key dir timestamp chunk) s

def closeFlow (s : TcpReassembler) (key : FlowKey) (reason : CloseReason) :
    Checked TcpReassembler :=
  match s.flows.get? key with
  | none => .error .assertion
  | some flow => do
    let s := { s with flows := s.flows.erase key }
    let flowMem ← flow.memoryUsed
    let (_, flushed) ← flushContiguous flow.clientToServer
    let s ← deliver s key .clientToServer flushed flow.lastSeen
    let (_, flushed) ← flushContiguous flow.serverToClient
    let s ← deliver s key .serverToClient flushed flow.lastSeen
    let totalMemory ← checkedSub s.totalMemory flowMem
    .ok { s with totalMemory, events := s.events ++ [.onFlowClose key reason] }

inductive EvictionTrigger
  | maxFlows
  | memCap
  deriving DecidableEq, Repr

def isEstablished (f : TcpFlow) : Bool := f.state == .established

/-- `a.1.cmp(&b.1).then(a.2.cmp(&b.2))` is not `Greater`: non-established flows first, then
the least recently seen. -/
def victimLe (a b : FlowKey × TcpFlow) : Prop :=
  (isEstablished a.2 = false ∧ isEstablished b.2 = true) ∨
    (isEstablished a.2 = isEstablished b.2 ∧ a.2.lastSeen ≤ b.2.lastSeen)

instance : DecidableRel victimLe := fun _ _ => inferInstanceAs (Decidable (_ ∨ _))

/-- `a * b` on `usize`. -/
def checkedMul (a b : Nat) : Checked Nat :=
  if a * b < 2 ^ 64 then .ok (a * b) else .error .multiplyOverflow

def flowCountTarget (config : ReassemblyConfig) : EvictionTrigger → Checked Nat
  | .maxFlows => do
    let nine ← checkedMul config.maxFlows 9
    .ok (min (nine / 10) (config.maxFlows - 1))
  | .memCap => .ok (config.maxFlows - 1)

def evictLoop (flowCountTarget : Nat) : TcpReassembler → List FlowKey → Checked TcpReassembler
  | s, [] => .ok s
  | s, key :: candidates =>
    if s.totalMemory ≤ s.config.memcap ∧ s.flows.size ≤ flowCountTarget then
      .ok s
    else do
      let s ← closeFlow { s with stats := { s.stats with evictions := bump s.stats.evictions } }
        key .memoryPressure
      evictLoop flowCountTarget s candidates

def evictFlows (ord : IterOrder) (s : TcpReassembler) (trigger : EvictionTrigger) :
    Checked TcpReassembler := do
  let candidates := (ord.visit s.iterations s.flows.entries).insertionSort victimLe
  let target ← flowCountTarget s.config trigger
  evictLoop target { s with iterations := s.iterations + 1 } (candidates.map Prod.fst)

def generateConflictingOverlapFinding (s : TcpReassembler) (key : FlowKey) (srcIp : IpAddr)
    (timestamp : UInt32) : TcpReassembler :=
  pushFinding s {
    category := .anomaly
    verdict := .likely
    confidence := .high
    summary := "Conflicting TCP segment overlap on flow " ++ key.display
    evidence := ["Retransmitted segment contains different data"]
    mitreTechniques := ["T1036"]
    sourceIp := some srcIp
    timestamp := some timestamp
    direction := none }

def generateTruncatedFinding (s : TcpReassembler) (key : FlowKey) (srcIp : IpAddr)
    (timestamp : UInt32) : TcpReassembler :=
  pushFinding s {
    category := .anomaly
    verdict := .inconclusive
    confidence := .low
    summary := "Stream depth exceeded on flow " ++ key.display
    evidence := ["Max depth " ++ toString s.config.maxDepth ++ " bytes reached"]
    mitreTechniques := []
    sourceIp := some srcIp
    timestamp := some timestamp
    direction := none }

/-! ## Expiry -/

/-- Collect the keys of the flows that `idle` selects, then close each as timed out. -/
def expireWhere (ord : IterOrder) (s : TcpReassembler) (idle : TcpFlow → Bool) :
    Checked TcpReassembler :=
  let expiredKeys := ((ord.visit s.iterations s.flows.entries).filter fun e => idle e.2).map Prod.fst
  expiredKeys.foldlM (fun s key =>
    closeFlow { s with stats := { s.stats with flowsExpired := bump s.stats.flowsExpired } }
      key .timeout)
    { s with iterations := s.iterations + 1 }

def pastTimeout (config : ReassemblyConfig) (currentTime : UInt32) (f : TcpFlow) : Bool :=
  currentTime > f.lastSeen && currentTime - f.lastSeen > config.flowTimeoutSecs

def expireIdleByTimeout (ord : IterOrder) (s : TcpReassembler) (currentTime : UInt32) :
    Checked TcpReassembler :=
  expireWhere ord s (pastTimeout s.config currentTime)

def expireIdleByPacketIndex (ord : IterOrder) (s : TcpReassembler) : Checked TcpReassembler :=
  expireWhere ord s fun f => s.packetIndex - f.lastActivityIndex > s.config.idlePacketThreshold

def expireFlows (ord : IterOrder) (s : TcpReassembler) (currentTime : UInt32) :
    Checked TcpReassembler :=
  expireWhere ord s fun f => f.state == .closed || pastTimeout s.config currentTime f

/-! ## The steps of `process_packet` -/

def extractTcpContext (s : TcpReassembler) (packet : ParsedPacket) :
    TcpReassembler × Option (FlowKey × TcpFields) :=
  if packet.protocol ≠ .tcp then
    ({ s with stats := { s.stats with
        packetsSkippedNonTcp := bump s.stats.packetsSkippedNonTcp } }, none)
  else
    match packet.transport with
    | .tcp tcp =>
      (s, some (FlowKey.new packet.srcIp tcp.srcPort packet.dstIp tcp.dstPort, tcp))
    | _ => (s, none)

/-- Make room for a new flow; the flag says that there is none. -/
def makeRoom (ord : IterOrder) (s : TcpReassembler) : Checked (TcpReassembler × Bool) :=
  if s.flows.size ≥ s.config.maxFlows then do
    let s ← evictFlows ord s .maxFlows
    .ok (s, s.flows.size ≥ s.config.maxFlows)
  else
    .ok (s, false)

/-- Stamp the flow with the time and index of the packet. -/
def touchFlow (s : TcpReassembler) (key : FlowKey) (timestamp : UInt32) :
    Checked TcpReassembler := do
  let flow ← unwrap (s.flows.get? key)
  let flow := { flow with lastSeen := timestamp, lastActivityIndex := s.packetIndex }
  .ok { s with flows := s.flows.insert key flow }

def getOrCreateFlow (ord : IterOrder) (s : TcpReassembler) (key : FlowKey) (timestamp : UInt32) :
    Checked (TcpReassembler × Bool) :=
  if (s.flows.get? key).isNone then do
    let (s, full) ← makeRoom ord s
    if full then
      .ok ({ s with events := s.events ++ [.packetDropped key] }, false)
    else do
      let s ← touchFlow { s with
        flows := s.flows.insert key (TcpFlow.new key timestamp)
        stats := { s.stats with flowsTotal := bump s.stats.flowsTotal }
        events := s.events ++ [.flowCreated key] } key timestamp
      .ok (s, true)
  else do
    let s ← touchFlow s key timestamp
    .ok (s, true)

/-- The SYN and SYN+ACK parts of `apply_handshake_flags`. -/
def applySynFlags (f : TcpFlow) (src dst : Endpoint) (tcp : TcpFields) : TcpFlow :=
  let f :=
    if tcp.syn && !tcp.ack then
      let f := f.setInitiator src
      let dir := f.direction src
      (f.setDir dir (setIsn (f.dir dir) tcp.seq)).onSyn
    else f
  if tcp.syn && tcp.ack then
    let f := f.setInitiator dst
    let dir := f.direction src
    (f.setDir dir (setIsn (f.dir dir) tcp.seq)).onSynAck
  else f

/-- The FIN part of `apply_handshake_flags`. -/
def applyFinFlag (f : TcpFlow) (src : Endpoint) (tcp : TcpFields) : TcpFlow :=
  if tcp.fin then
    let dir := f.direction src
    (f.setDir dir { f.dir dir with finSeen := true }).onFin
  else f

inductive PostHandshake
  | proceed
  | flowClosed
  deriving DecidableEq, Repr

def applyHandshakeFlags (s : TcpReassembler) (packet : ParsedPacket) (key : FlowKey)
    (tcp : TcpFields) : Checked (TcpReassembler × PostHandshake) := do
  let flow ← unwrap (s.flows.get? key)
  let src := (packet.srcIp, tcp.srcPort)
  let flow := applySynFlags flow src (packet.dstIp, tcp.dstPort) tcp
  if tcp.rst then do
    let s ← closeFlow { s with
      flows := s.flows.insert key flow.onRst
      stats := { s.stats with flowsRst := bump s.stats.flowsRst } } key .rst
    .ok (s, .flowClosed)
  else
    .ok ({ s with flows := s.flows.insert key (applyFinFlag flow src tcp) }, .proceed)

/-- The part of `insert_payload_segment` before the insertion: a mid-stream join infers the
initiator, and a direction without an ISN infers it. Also the direction of the payload, and
whether the flow has just been joined. -/
def joinFlow (f : TcpFlow) (src : Endpoint) (seq : UInt32) : TcpFlow × Direction × Bool :=
  let joined := f.state == .new
  let f :=
    if joined then
      let f := f.onDataWithoutSyn.setInitiator src
      let dir := f.direction src
      f.setDir dir (inferIsn (f.dir dir) seq)
    else f
  let dir := f.direction src
  let f := if (f.dir dir).isn.isNone then f.setDir dir (inferIsn (f.dir dir) seq) else f
  (f, dir, joined)

/-- Turned away before the window, which leaves the run of small segments alone. -/
def turnedAway : InsertResult → Bool
  | .outOfWindow | .segmentLimitReached | .depthExceeded | .isnMissing => true
  | _ => false

def countSmallSegment (config : ReassemblyConfig) (d : FlowDirection) (payload : List UInt8)
    (result : InsertResult) : FlowDirection :=
  if !payload.isEmpty && !turnedAway result then
    if payload.length < config.smallSegmentMaxBytes then
      { d with smallSegmentRun := saturatingInc 32 d.smallSegmentRun }
    else
      { d with smallSegmentRun := 0 }
  else d

/-- The counters and findings of the outcome of an insertion. -/
def reportInsert (s : TcpReassembler) (key : FlowKey) (srcIp : IpAddr) (timestamp : UInt32)
    (bytesAdded : Nat) : InsertResult → TcpReassembler
  | .inserted =>
    { s with stats := { s.stats with segmentsInserted := bump s.stats.segmentsInserted } }
  | .duplicate =>
    { s with stats := { s.stats with segmentsDuplicates := bump s.stats.segmentsDuplicates } }
  | .partialOverlap =>
    { s with stats := { s.stats with
      segmentsOverlaps := bump s.stats.segmentsOverlaps
      segmentsInserted := bump s.stats.segmentsInserted } }
  | .conflictingOverlap =>
    generateConflictingOverlapFinding
      { s with stats := { s.stats with segmentsOverlaps := bump s.stats.segmentsOverlaps } }
      key srcIp timestamp
  | .truncated =>
    generateTruncatedFinding
      { s with stats := { s.stats with segmentsInserted := bump s.stats.segmentsInserted } }
      key srcIp timestamp
  | .depthExceeded =>
    { s with stats := { s.stats with
      segmentsDepthExceeded := bump s.stats.segmentsDepthExceeded } }
  | .segmentLimitReached =>
    let s := { s with stats := { s.stats with
      segmentsSegmentLimit := bump s.stats.segmentsSegmentLimit } }
    if bytesAdded > 0 then
      { s with stats := { s.stats with
        segmentsOverlaps := bump s.stats.segmentsOverlaps
        segmentsInserted := bump s.stats.segmentsInserted } }
    else s
  | .outOfWindow =>
    { s with stats := { s.stats with segmentsOutOfWindow := bump s.stats.segmentsOutOfWindow } }
  | .isnMissing => s

def insertPayloadSegment (s : TcpReassembler) (packet : ParsedPacket) (key : FlowKey)
    (tcp : TcpFields) (timestamp : UInt32) : Checked (TcpReassembler × Direction) := do
  let flow ← unwrap (s.flows.get? key)
  let (flow, dir, joined) := joinFlow flow (packet.srcIp, tcp.srcPort) tcp.seq
  let flowDir := flow.dir dir
  let beforeInsert := flowDir.bufferedBytes
  let (flowDir, result) ← insertSegment flowDir tcp.seq packet.payload s.config.limits
  assertThat (flowDir.bufferedBytes ≥ beforeInsert)
  let bytesAdded := flowDir.bufferedBytes - beforeInsert
  let totalMemory ← checkedAdd 64 s.totalMemory bytesAdded
  let flowDir := countSmallSegment s.config flowDir packet.payload result
  let s := { s with
    flows := s.flows.insert key (flow.setDir dir flowDir)
    totalMemory
    stats := { s.stats with
      flowsPartial := if joined then bump s.stats.flowsPartial else s.stats.flowsPartial } }
  .ok (reportInsert s key packet.srcIp timestamp bytesAdded result, dir)

def overlapFinding (key : FlowKey) (d : FlowDirection) (srcIp : IpAddr) (timestamp : UInt32)
    (dir : Direction) : Finding where
  category := .anomaly
  verdict := .likely
  confidence := .medium
  summary := "Excessive segment overlaps (" ++ toString d.overlapCount ++ ") on flow " ++ key.display
  evidence := ["Possible evasion attempt"]
  mitreTechniques := ["T1036"]
  sourceIp := some srcIp
  timestamp := some timestamp
  direction := some dir

def smallSegmentFinding (key : FlowKey) (d : FlowDirection) (srcIp : IpAddr) (timestamp : UInt32)
    (dir : Direction) : Finding where
  category := .anomaly
  verdict := .inconclusive
  confidence := .medium
  summary := "Excessive consecutive small segments (" ++ toString d.smallSegmentRun ++
    ") on flow " ++ key.display
  evidence := ["Long unbroken run of undersized TCP segments; possible " ++
    "segmentation-based IDS evasion"]
  mitreTechniques := []
  sourceIp := some srcIp
  timestamp := some timestamp
  direction := some dir

def outOfWindowFinding (key : FlowKey) (d : FlowDirection) (window : Nat) (srcIp : IpAddr)
    (timestamp : UInt32) (dir : Direction) : Finding where
  category := .anomaly
  verdict := .inconclusive
  confidence := .low
  summary := "Excessive out-of-window segments (" ++ toString d.outOfWindowCount ++
    ") on flow " ++ key.display
  evidence := ["max_receive_window=" ++ toString window ++
    " bytes; possible misconfiguration, evasion, or capture corruption"]
  mitreTechniques := []
  sourceIp := some srcIp
  timestamp := some timestamp
  direction := some dir

def overlapCrossed (config : ReassemblyConfig) (d : FlowDirection) : Bool :=
  d.overlapCount > config.overlapAlertThreshold && !d.overlapAlertFired

def smallSegmentsCrossed (config : ReassemblyConfig) (key : FlowKey) (d : FlowDirection) : Bool :=
  d.smallSegmentRun > config.smallSegmentAlertThreshold && !d.smallSegmentAlertFired &&
    !config.smallSegmentIgnorePorts.any fun p => p == key.lowerPort || p == key.upperPort

def outOfWindowCrossed (config : ReassemblyConfig) (d : FlowDirection) : Bool :=
  d.outOfWindowCount > config.outOfWindowAlertThreshold && !d.outOfWindowAlertFired

/-- The alert latches of a direction, set whether or not the finding is dropped. -/
def latchAlerts (config : ReassemblyConfig) (key : FlowKey) (d : FlowDirection) : FlowDirection :=
  { d with
    overlapAlertFired := d.overlapAlertFired || overlapCrossed config d
    smallSegmentAlertFired := d.smallSegmentAlertFired || smallSegmentsCrossed config key d
    outOfWindowAlertFired := d.outOfWindowAlertFired || outOfWindowCrossed config d }

def pushFindingIf (crossed : Bool) (s : TcpReassembler) (finding : Finding) : TcpReassembler :=
  if crossed then pushFinding s finding else s

def checkAnomalyThresholds (s : TcpReassembler) (packet : ParsedPacket) (key : FlowKey)
    (dir : Direction) (timestamp : UInt32) : Checked TcpReassembler := do
  let flow ← unwrap (s.flows.get? key)
  let d := flow.dir dir
  let s := { s with flows := s.flows.insert key (flow.setDir dir (latchAlerts s.config key d)) }
  let s := pushFindingIf (overlapCrossed s.config d) s
    (overlapFinding key d packet.srcIp timestamp dir)
  let s := pushFindingIf (smallSegmentsCrossed s.config key d) s
    (smallSegmentFinding key d packet.srcIp timestamp dir)
  .ok (pushFindingIf (outOfWindowCrossed s.config d) s
    (outOfWindowFinding key d s.config.maxReceiveWindow packet.srcIp timestamp dir))

def flushContiguousData (s : TcpReassembler) (key : FlowKey) (dir : Direction)
    (timestamp : UInt32) : Checked TcpReassembler := do
  let flow ← unwrap (s.flows.get? key)
  let flowDir := flow.dir dir
  let (flowDir', flushed) ← flushContiguous flowDir
  let freed ← checkedSub flowDir.bufferedBytes flowDir'.bufferedBytes
  let totalMemory ← checkedSub s.totalMemory freed
  deliver { s with flows := s.flows.insert key (flow.setDir dir flowDir'), totalMemory }
    key dir flushed timestamp

/-- The payload steps of `process_packet`. -/
def processPayload (s : TcpReassembler) (packet : ParsedPacket) (key : FlowKey)
    (tcp : TcpFields) (timestamp : UInt32) : Checked TcpReassembler :=
  if packet.payload.isEmpty then
    .ok s
  else do
    let (s, dir) ← insertPayloadSegment s packet key tcp timestamp
    let s ← checkAnomalyThresholds s packet key dir timestamp
    flushContiguousData s key dir timestamp

/-- Remove the flow if it has been closed by a FIN of this packet. -/
def closeIfFinished (s : TcpReassembler) (key : FlowKey) : Checked TcpReassembler :=
  match s.flows.get? key with
  | none => .ok s
  | some flow =>
    if flow.state = .closed then
      closeFlow { s with stats := { s.stats with flowsFin := bump s.stats.flowsFin } } key .fin
    else .ok s

/-- The memcap check at the end of `process_packet`. -/
def enforceMemcap (ord : IterOrder) (s : TcpReassembler) : Checked TcpReassembler :=
  if s.totalMemory > s.config.memcap then evictFlows ord s .memCap else .ok s

/-- The sweep that runs when the capture time has advanced. -/
def sweepByTimestamp (ord : IterOrder) (s : TcpReassembler) (timestamp : UInt32) :
    Checked TcpReassembler :=
  if timestamp > s.lastExpirySweepSecs then
    expireIdleByTimeout ord { s with lastExpirySweepSecs := timestamp } timestamp
  else .ok s

/-- The sweep that runs every `expiry_sweep_interval` packets. -/
def sweepByPacketIndex (ord : IterOrder) (s : TcpReassembler) : Checked TcpReassembler :=
  if s.packetIndex % s.config.expirySweepInterval = 0 then
    expireIdleByPacketIndex ord s
  else .ok s

/-- `process_packet` from the point where the flow of the packet is in the table. -/
def processOnFlow (ord : IterOrder) (s : TcpReassembler) (packet : ParsedPacket) (key : FlowKey)
    (tcp : TcpFields) (timestamp : UInt32) : Checked TcpReassembler := do
  let s := { s with events := s.events ++
    [.packet key (packet.srcIp, tcp.srcPort) (packet.dstIp, tcp.dstPort) tcp packet.payload] }
  match ← applyHandshakeFlags s packet key tcp with
  | (s, .flowClosed) => .ok s
  | (s, .proceed) => do
    let s ← processPayload s packet key tcp timestamp
    let s ← closeIfFinished s key
    enforceMemcap ord s

def processPacket (ord : IterOrder) (s : TcpReassembler) (packet : ParsedPacket)
    (timestamp : UInt32) : Checked TcpReassembler := do
  let packetIndex ← checkedInc 64 s.packetIndex
  let s := { s with
    stats := { s.stats with packetsProcessed := bump s.stats.packetsProcessed }
    packetIndex }
  let s ← sweepByTimestamp ord s timestamp
  let s ← sweepByPacketIndex ord s
  match extractTcpContext s packet with
  | (s, none) => .ok s
  | (s, some (key, tcp)) => do
    let s := { s with stats := { s.stats with packetsTcp := bump s.stats.packetsTcp } }
    let (s, found) ← getOrCreateFlow ord s key timestamp
    if found then processOnFlow ord s packet key tcp timestamp else .ok s

/-! ## The end of a capture -/

def pluralS (count : Nat) : String := if count = 1 then "" else "s"

def segmentLimitFinding (count : Nat) : Finding where
  category := .anomaly
  verdict := .inconclusive
  confidence := .medium
  summary := toString count ++ " segment" ++ pluralS count ++
    " dropped due to per-flow segment count limit"
  evidence := ["Segment count limit prevents BTreeMap overhead explosion",
    "May indicate segmentation-based evasion attempt"]
  mitreTechniques := []
  sourceIp := none
  timestamp := none
  direction := none

def finalize (ord : IterOrder) (s : TcpReassembler) : Checked TcpReassembler :=
  if s.finalized then
    .ok s
  else do
    let allKeys := (ord.visit s.iterations s.flows.entries).map Prod.fst
    let s ← allKeys.foldlM (fun s key => closeFlow s key .timeout)
      { s with finalized := true, iterations := s.iterations + 1 }
    if s.stats.segmentsSegmentLimit > 0 then
      .ok { s with findings := s.findings ++ [segmentLimitFinding s.stats.segmentsSegmentLimit] }
    else .ok s

/-- The sum of `memory_used()` over all flows. -/
def flowsMemorySum (s : TcpReassembler) : Checked Nat :=
  s.flows.entries.foldlM (fun sum e => do .ok (sum + (← e.2.memoryUsed))) 0

end Wirerust.Engine
