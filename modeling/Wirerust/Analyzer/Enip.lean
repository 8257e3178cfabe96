import Wirerust.Analyzer.Common

/-!
The EtherNet/IP analyzer (`analyzer/enip.rs`).

`on_data` first walks over the bytes and queues the frames it finds, then gives them to
`process_pdu`. Both work on the analyzer and on one flow of its table, which are passed side by
side. `all_findings` and `dropped_findings` are the two fields of `findings`. The loop is `walk`;
it gets as many turns as there are bytes, and each turn takes at least one of them.

The evidence of an error burst prints a hash map, whose order is unspecified; here it is the
order of the keys.
-/

namespace Wirerust.Enip

open Lib Wirerust.Flow Wirerust.Analyzer

/-! ## Headers and commands -/

structure EnipHeader where
  command : UInt16
  length : UInt16
  sessionHandle : UInt32
  status : UInt32
  senderContext : List UInt8
  options : UInt32
  deriving DecidableEq, Repr

def leU16At (data : List UInt8) (i : Nat) : UInt16 := leU16 (byteAt data i) (byteAt data (i + 1))

def leU32At (data : List UInt8) (i : Nat) : UInt32 :=
  leU32 (byteAt data i) (byteAt data (i + 1)) (byteAt data (i + 2)) (byteAt data (i + 3))

def parseEnipHeader (data : List UInt8) : Option EnipHeader :=
  if data.length < 24 then none
  else some {
    command := leU16At data 0
    length := leU16At data 2
    sessionHandle := leU32At data 4
    status := leU32At data 8
    senderContext := (data.take 20).drop 12
    options := leU32At data 20 }

inductive EnipCommandClass
  | listServices
  | listIdentity
  | listInterfaces
  | registerSession
  | unRegisterSession
  | sendRRData
  | sendUnitData
  | indicateStatus
  | cancel
  | unknown
  deriving DecidableEq, Repr

def classifyEnipCommand (command : UInt16) : EnipCommandClass :=
  if command = 0x0004 then .listServices
  else if command = 0x0063 then .listIdentity
  else if command = 0x0064 then .listInterfaces
  else if command = 0x0065 then .registerSession
  else if command = 0x0066 then .unRegisterSession
  else if command = 0x006f then .sendRRData
  else if command = 0x0070 then .sendUnitData
  else if command = 0x0072 then .indicateStatus
  else if command = 0x0075 then .cancel
  else .unknown

def isValidEnipFrame (h : EnipHeader) : Bool :=
  h.command ∈ [0x0004, 0x0063, 0x0064, 0x0065, 0x0066, 0x006f, 0x0070, 0x0072, 0x0075]

def maxEnipCarryBytes : Nat := 600

def malformedAnomalyThreshold : Nat := 3

/-! ## Common packet format and CIP -/

structure CpfItem where
  typeId : UInt16
  data : List UInt8
  deriving DecidableEq, Repr

/-- At most `count` items; the first one that does not fit ends the list. -/
def cpfItems : Nat → List UInt8 → List CpfItem
  | 0, _ => []
  | count + 1, data =>
    if data.length < 4 then []
    else
      let length := (leU16At data 2).toNat
      let rest := data.drop 4
      if rest.length < length then []
      else ⟨leU16At data 0, rest.take length⟩ :: cpfItems count (rest.drop length)

def parseCpfItems (cpfData : List UInt8) : List CpfItem :=
  if cpfData.length < 2 then []
  else cpfItems (leU16At cpfData 0).toNat (cpfData.drop 2)

structure CipHeader where
  service : UInt8
  requestPath : List UInt8
  deriving DecidableEq, Repr

def parseCipHeader (itemData : List UInt8) : Option CipHeader :=
  if itemData.length < 2 then none
  else
    let pathByteCount := (byteAt itemData 1).toNat * 2
    if itemData.length < 2 + pathByteCount then none
    else some ⟨byteAt itemData 0, (itemData.take (2 + pathByteCount)).drop 2⟩

inductive CipServiceClass
  | getAttributesAll
  | setAttributesAll
  | getAttributeList
  | setAttributeList
  | reset
  | stop
  | multipleServicePacket
  | getAttributeSingle
  | setAttributeSingle
  | getAndClear
  | forwardClose
  | forwardOpen
  | largeForwardOpen
  | response
  | unknown
  deriving DecidableEq, Repr

def classifyCipService (service : UInt8) : CipServiceClass :=
  if service &&& 0x80 ≠ 0 then .response
  else if service = 0x01 then .getAttributesAll
  else if service = 0x02 then .setAttributesAll
  else if service = 0x03 then .getAttributeList
  else if service = 0x04 then .setAttributeList
  else if service = 0x05 then .reset
  else if service = 0x07 then .stop
  else if service = 0x0a then .multipleServicePacket
  else if service = 0x0e then .getAttributeSingle
  else if service = 0x10 then .setAttributeSingle
  else if service = 0x4b then .getAndClear
  else if service = 0x4e then .forwardClose
  else if service = 0x54 then .forwardOpen
  else if service = 0x5b then .largeForwardOpen
  else .unknown

def serviceClassName : CipServiceClass → String
  | .getAttributesAll => "GetAttributesAll"
  | .getAttributeList => "GetAttributeList"
  | .getAttributeSingle => "GetAttributeSingle"
  | .setAttributesAll => "SetAttributesAll"
  | .setAttributeList => "SetAttributeList"
  | .setAttributeSingle => "SetAttributeSingle"
  | .reset => "Reset"
  | .stop => "Stop"
  | .multipleServicePacket => "MultipleServicePacket"
  | .getAndClear => "GetAndClear"
  | .forwardClose => "ForwardClose"
  | .forwardOpen => "ForwardOpen"
  | .largeForwardOpen => "LargeForwardOpen"
  | .response => "Response"
  | .unknown => "Unknown"

inductive CipPathSegment
  | classSegment (value : UInt8)
  | instanceSegment (value : UInt8)
  | attributeSegment (value : UInt8)
  deriving DecidableEq, Repr

/-- Segments of another type are left out. -/
def parseCipRequestPath : List UInt8 → List CipPathSegment
  | segmentType :: value :: path =>
    (if segmentType = 0x20 then [.classSegment value]
      else if segmentType = 0x24 then [.instanceSegment value]
      else if segmentType = 0x30 then [.attributeSegment value]
      else []) ++ parseCipRequestPath path
  | _ => []

/-! ## State -/

structure EnipFlowState where
  errorCountsInWindow : SortedMap UInt8 Nat := .empty
  errorWindowStartTs : UInt32 := 0
  errorWindowActive : Bool := false
  errorRateEmitted : Bool := false
  writeCountInWindow : Nat := 0
  writeBurstEmitted : Bool := false
  writeWindowStartTs : UInt32 := 0
  listIdentityEmitted : Bool := false
  isNonEnip : Bool := false
  commandCounts : SortedMap UInt16 Nat := .empty
  pduCount : Nat := 0
  parseErrors : Nat := 0
  malformedInWindow : Nat := 0
  carryC2s : List UInt8 := []
  carryS2c : List UInt8 := []
  openConnectionCount : Nat := 0
  closeConnectionCount : Nat := 0
  malformedAnomalyEmitted : Bool := false
  malformedWindowStartTs : UInt32 := 0

namespace EnipFlowState

def carry (flow : EnipFlowState) : Direction → List UInt8
  | .clientToServer => flow.carryC2s
  | .serverToClient => flow.carryS2c

def setCarry (flow : EnipFlowState) (dir : Direction) (bytes : List UInt8) : EnipFlowState :=
  match dir with
  | .clientToServer => { flow with carryC2s := bytes }
  | .serverToClient => { flow with carryS2c := bytes }

end EnipFlowState

structure EnipAnalyzer where
  enipWriteBurstThreshold : UInt32
  enipErrorBurstThreshold : UInt32
  findings : Capped Finding
  bytesReceived : Nat
  errorCount : Nat
  writeCount : Nat
  flows : SortedMap FlowKey EnipFlowState
  totalPduCount : Nat
  parseErrors : Nat
  commandDistribution : SortedMap UInt16 Nat
  flowsAnalyzed : Nat

def EnipAnalyzer.new (writeBurstThreshold errorBurstThreshold : UInt32) : EnipAnalyzer where
  enipWriteBurstThreshold := writeBurstThreshold
  enipErrorBurstThreshold := errorBurstThreshold
  findings := ⟨[], 0⟩
  bytesReceived := 0
  errorCount := 0
  writeCount := 0
  flows := .empty
  totalPduCount := 0
  parseErrors := 0
  commandDistribution := .empty
  flowsAnalyzed := 0

/-! ## Findings -/

/-- What is known of a call besides its bytes. -/
structure Delivery where
  flowKey : FlowKey
  ts : UInt32
  direction : Direction

namespace Delivery

/-- The server is the endpoint with port 44818; the upper one if the lower one has another. -/
def clientIp (c : Delivery) : IpAddr :=
  if c.flowKey.lowerPort = 44818 then c.flowKey.upperIp else c.flowKey.lowerIp

def serverIp (c : Delivery) : IpAddr :=
  if c.flowKey.lowerPort = 44818 then c.flowKey.lowerIp else c.flowKey.upperIp

def srcIp (c : Delivery) : IpAddr :=
  match c.direction with
  | .clientToServer => c.clientIp
  | .serverToClient => c.serverIp

def destIp (c : Delivery) : IpAddr :=
  match c.direction with
  | .clientToServer => c.serverIp
  | .serverToClient => c.clientIp

def finding (c : Delivery) (category : ThreatCategory) (verdict : Verdict)
    (confidence : Confidence) (summary evidence : String) (mitreTechniques : List String) :
    Finding where
  category := category
  verdict := verdict
  confidence := confidence
  summary := summary
  evidence := [evidence]
  mitreTechniques := mitreTechniques
  sourceIp := some c.srcIp
  timestamp := some c.ts
  direction := none

def src (c : Delivery) : String := "src=" ++ c.srcIp.display

end Delivery

def EnipHeader.session (h : EnipHeader) : String := "session=" ++ toString h.sessionHandle

def emit (s : EnipAnalyzer) (finding : Finding) : EnipAnalyzer :=
  { s with findings := pushFinding s.findings finding }

/-- The flag is set only if there was room for the finding. -/
def checkT0814 (c : Delivery) (s : EnipAnalyzer) (flow : EnipFlowState) :
    EnipAnalyzer × EnipFlowState :=
  if flow.malformedInWindow ≥ malformedAnomalyThreshold && !flow.malformedAnomalyEmitted &&
      !flow.isNonEnip then
    let elapsed := saturatingSub c.ts flow.malformedWindowStartTs
    let count := toString flow.malformedInWindow
    (emit s (c.finding .anomaly .possible .low
      ("EtherNet/IP structural anomaly: " ++ count ++ " malformed frames in " ++
        toString elapsed ++ "s window (flow " ++ c.srcIp.display ++ "→" ++ c.destIp.display ++
        ") — possible crash-probe")
      ("malformed_in_window=" ++ count ++ "; threshold=" ++ toString malformedAnomalyThreshold)
      ["T0814"]),
      if hasRoom s.findings then { flow with malformedAnomalyEmitted := true } else flow)
  else (s, flow)

/-! ## `process_pdu` -/

section Detectors

variable (c : Delivery) (header : EnipHeader) (cip : CipHeader) (serviceClass : CipServiceClass)
variable (s : EnipAnalyzer) (flow : EnipFlowState)

def detectListIdentity : EnipAnalyzer × EnipFlowState :=
  if !flow.listIdentityEmitted then
    (emit s (c.finding .reconnaissance .likely .high
      "EtherNet/IP ListIdentity broadcast observed: network-wide device enumeration (T0846)"
      ("ENIP command=0x0063 (ListIdentity) " ++ c.src ++ " " ++ header.session) ["T0846"]),
      if hasRoom s.findings then { flow with listIdentityEmitted := true } else flow)
  else (s, flow)

/-- `values().sum()` -/
def sumCounts (counts : SortedMap UInt8 Nat) : Checked Nat :=
  counts.entries.foldlM (fun acc e => checkedAdd 64 acc e.2) 0

/-- `{:?}` of a map. -/
def showCounts (counts : SortedMap UInt8 Nat) : String :=
  "\x7b" ++ ", ".intercalate (counts.entries.map fun e => toString e.1 ++ ": " ++ toString e.2) ++
    "\x7d"

/-- Errors are counted in a window of ten seconds. -/
def expireErrorWindow : EnipFlowState :=
  if flow.errorWindowActive && saturatingSub c.ts flow.errorWindowStartTs > 10 then
    { flow with
      errorCountsInWindow := .empty
      errorWindowStartTs := c.ts
      errorRateEmitted := false }
  else flow

/-- The first error starts the first window. -/
def startErrorWindow : EnipFlowState :=
  if !flow.errorWindowActive then
    { flow with errorWindowStartTs := c.ts, errorWindowActive := true }
  else flow

def detectErrorBurst (total : Nat) : EnipAnalyzer × EnipFlowState :=
  if total > s.enipErrorBurstThreshold.toNat && !flow.errorRateEmitted then
    (emit s (c.finding .reconnaissance .possible .medium
      ("CIP error-response burst: " ++ toString total ++
        " error responses in 10s window — possible service enumeration (T0888)")
      ("error_counts_in_window=" ++ showCounts flow.errorCountsInWindow ++
        " within 10s; possible service probe") ["T0888"]),
      if hasRoom s.findings then { flow with errorRateEmitted := true } else flow)
  else (s, flow)

/-- A response with another status than success. -/
def countError (generalStatus : UInt8) : Checked (EnipAnalyzer × EnipFlowState) := do
  let flow := expireErrorWindow c flow
  let (counts, _) ← countEntry 64 flow.errorCountsInWindow generalStatus
  let flow := startErrorWindow c { flow with errorCountsInWindow := counts }
  let s := { s with errorCount := bump64 s.errorCount }
  let total ← sumCounts flow.errorCountsInWindow
  .ok (detectErrorBurst c s flow total)

def processResponse (itemData : List UInt8) : Checked (EnipAnalyzer × EnipFlowState) :=
  if itemData.length < 4 then .ok (s, flow)
  else
    let generalStatus := byteAt itemData 2
    if generalStatus ≠ 0x00 then countError c s flow generalStatus else .ok (s, flow)

/-- The service is named by its byte and its class. -/
def CipHeader.named : String :=
  "CIP service=" ++ hexByte cip.service ++ " (" ++ serviceClassName serviceClass ++ ")"

def detectIdentityRead : EnipAnalyzer :=
  if serviceClass ∈ [.getAttributesAll, .getAttributeList, .getAttributeSingle] &&
      cip.service &&& 0x80 == 0 then
    if (parseCipRequestPath cip.requestPath).any (· == .classSegment 0x01) then
      emit s (c.finding .reconnaissance .likely .high
        "CIP Identity Object attribute read: single-device reconnaissance (T0888)"
        (cip.named serviceClass ++ " path targets Identity Object (class 0x01) " ++ c.src)
        ["T0888"])
    else s
  else s

/-- The finding for a service that changes the state of the device. -/
def detectCommand (wanted : CipServiceClass) (summary name technique : String) : EnipAnalyzer :=
  if serviceClass == wanted && cip.service &&& 0x80 == 0 then
    emit s (c.finding .execution .likely .high summary
      ("CIP service=" ++ name ++ " from " ++ c.src ++ " ENIP cmd=" ++ hexWord header.command ++
        " " ++ header.session) [technique])
  else s

def detectStop : EnipAnalyzer :=
  detectCommand c header cip serviceClass s .stop
    "CIP Stop service observed: controller run→stop transition command (T0858)" "0x07 (Stop)"
    "T0858"

def detectReset : EnipAnalyzer :=
  detectCommand c header cip serviceClass s .reset
    "CIP Reset service observed: adversary-triggered device restart (T0816)" "0x05 (Reset)"
    "T0816"

/-- Writes are counted in a window of one second. -/
def countWrite : EnipFlowState :=
  if flow.writeCountInWindow > 0 && saturatingSub c.ts flow.writeWindowStartTs > 1 then
    { flow with
      writeCountInWindow := 1
      writeWindowStartTs := c.ts
      writeBurstEmitted := false }
  else if bump64 flow.writeCountInWindow = 1 then
    { flow with writeCountInWindow := 1, writeWindowStartTs := c.ts }
  else { flow with writeCountInWindow := bump64 flow.writeCountInWindow }

def detectWriteBurst : EnipAnalyzer × EnipFlowState :=
  if serviceClass ∈ [.setAttributesAll, .setAttributeList, .setAttributeSingle] &&
      cip.service &&& 0x80 == 0 then
    let flow := countWrite c flow
    let s := { s with writeCount := bump64 s.writeCount }
    if flow.writeCountInWindow > s.enipWriteBurstThreshold.toNat && !flow.writeBurstEmitted then
      (emit s (c.finding .execution .likely .medium
        ("CIP write-class service burst: " ++ toString flow.writeCountInWindow ++
          " SetAttribute operations in 1s window (threshold " ++
          toString s.enipWriteBurstThreshold ++
          ") — possible parameter modification attack (T0836)")
        (cip.named serviceClass ++ " " ++ c.src ++ " ENIP " ++ header.session) ["T0836"]),
        if hasRoom s.findings then { flow with writeBurstEmitted := true } else flow)
    else (s, flow)
  else (s, flow)

def detectConnection : EnipAnalyzer × EnipFlowState :=
  if serviceClass ∈ [.forwardOpen, .largeForwardOpen] then
    (emit s (c.finding .anomaly .possible .low
      ("CIP ForwardOpen connection establishment observed from " ++ c.src ++
        ": connection lifecycle anomaly")
      (cip.named serviceClass ++ " from " ++ c.src ++ " " ++ header.session ++
        ". No dedicated MITRE ICS technique for CIP connection establishment anomaly; " ++
        "T1692.001 applies only when connection demonstrably carries unauthorized command " ++
        "(ADR-010 Decision 7)") []),
      { flow with openConnectionCount := bump32 flow.openConnectionCount })
  else if serviceClass = .forwardClose then
    (emit s (c.finding .anomaly .possible .low
      ("CIP ForwardClose connection teardown observed from " ++ c.src ++
        ": connection lifecycle closed")
      ("CIP service=0x4E (ForwardClose) from " ++ c.src ++ " " ++ header.session ++
        ". Connection lifecycle closed; no dedicated MITRE ICS technique " ++
        "(ADR-010 Decision 7)") []),
      { flow with closeConnectionCount := bump32 flow.closeConnectionCount })
  else (s, flow)

def processRequest : EnipAnalyzer × EnipFlowState :=
  let s := detectIdentityRead c cip serviceClass s
  let s := detectStop c header cip serviceClass s
  let s := detectReset c header cip serviceClass s
  let (s, flow) := detectWriteBurst c header cip serviceClass s flow
  detectConnection c header cip serviceClass s flow

end Detectors

/-- Only unconnected data items are looked at. -/
def processItem (c : Delivery) (header : EnipHeader) (w : EnipAnalyzer × EnipFlowState)
    (item : CpfItem) : Checked (EnipAnalyzer × EnipFlowState) :=
  if item.typeId ≠ 0x00b2 then .ok w
  else
    match parseCipHeader item.data with
    | none => .ok w
    | some cip =>
      let serviceClass := classifyCipService cip.service
      if serviceClass = .response then processResponse c w.1 w.2 item.data
      else .ok (processRequest c header cip serviceClass w.1 w.2)

/-- The header, the interface handle and the timeout. -/
def cpfOffset : Nat := 30

def processPdu (c : Delivery) (w : EnipAnalyzer × EnipFlowState) (pdu : List UInt8) :
    Checked (EnipAnalyzer × EnipFlowState) :=
  if w.2.isNonEnip then .ok w
  else
    let flow := { w.2 with pduCount := bump64 w.2.pduCount }
    match parseEnipHeader pdu with
    | none => .error .assertion
    | some header =>
      match classifyEnipCommand header.command with
      | .listIdentity => .ok (detectListIdentity c header w.1 flow)
      | .sendRRData | .sendUnitData =>
        if pdu.length ≤ cpfOffset then .ok (w.1, flow)
        else run (processItem c header) (w.1, flow) (parseCpfItems (pdu.drop cpfOffset))
      | _ => .ok (w.1, flow)

/-! ## `on_data` -/

def countCommand (flow : EnipFlowState) (command : UInt16) : Checked EnipFlowState := do
  let (counts, _) ← countEntry 64 flow.commandCounts command
  .ok { flow with commandCounts := counts }

def countMalformed (flow : EnipFlowState) : EnipFlowState :=
  { flow with
    parseErrors := bump64 flow.parseErrors
    malformedInWindow := bump64 flow.malformedInWindow }

/-- A header that is given up, for its command or for its length. -/
def rejectFrame (c : Delivery) (command : UInt16) (s : EnipAnalyzer) (flow : EnipFlowState) :
    Checked (EnipAnalyzer × EnipFlowState) := do
  let flow ← countCommand flow command
  .ok (checkT0814 c s (countMalformed flow))

/-- What the walk leaves: `queue` is for `process_pdu`, `rest` for the carry. -/
structure Walked where
  analyzer : EnipAnalyzer
  flow : EnipFlowState
  queue : List (List UInt8)
  rest : List UInt8

def walk (c : Delivery) :
    Nat → EnipAnalyzer → EnipFlowState → List UInt8 → Checked Walked
  | 0, s, flow, buf => .ok ⟨s, flow, [], buf⟩
  | turns + 1, s, flow, buf =>
    if buf.length < 24 then .ok ⟨s, flow, [], buf⟩
    else
      match parseEnipHeader (buf.take 24) with
      | none => .error .assertion
      | some header =>
        if !isValidEnipFrame header then do
          let (s, flow) ← rejectFrame c header.command s flow
          walk c turns s flow (buf.drop 1)
        else
          let totalFrameLen := 24 + header.length.toNat
          if totalFrameLen > maxEnipCarryBytes then do
            let (s, flow) ← rejectFrame c header.command s flow
            walk c turns s flow (buf.drop (min totalFrameLen buf.length))
          else if buf.length < totalFrameLen then .ok ⟨s, flow, [], buf⟩
          else do
            let flow ← countCommand flow header.command
            let w ← walk c turns s flow (buf.drop totalFrameLen)
            .ok { w with queue := buf.take totalFrameLen :: w.queue }

def maybeExpireMalformedWindow (flow : EnipFlowState) (ts : UInt32) : EnipFlowState :=
  if saturatingSub ts flow.malformedWindowStartTs > 300 then
    { flow with
      malformedInWindow := 0
      malformedAnomalyEmitted := false
      malformedWindowStartTs := ts }
  else flow

/-- The rest goes into the carry; a carry that is too long ends the analysis of the flow. -/
def stash (c : Delivery) (w : Walked) : EnipAnalyzer × EnipFlowState :=
  let flow := w.flow.setCarry c.direction w.rest
  if (flow.carry c.direction).length > maxEnipCarryBytes then
    let (s, flow) := checkT0814 c w.analyzer (countMalformed flow)
    (s, { flow with isNonEnip := true }.setCarry c.direction [])
  else (w.analyzer, flow)

def onData (s : EnipAnalyzer) (c : Delivery) (data : List UInt8) : Checked EnipAnalyzer := do
  let s := { s with bytesReceived := min (s.bytesReceived + data.length) (2 ^ 64 - 1) }
  let flow := (s.flows.get? c.flowKey).getD {}
  let s := { s with flows := s.flows.erase c.flowKey }
  if flow.isNonEnip then
    .ok { s with flows := s.flows.insert c.flowKey flow }
  else
    let flow := maybeExpireMalformedWindow flow c.ts
    let buf := flow.carry c.direction ++ data
    let w ← walk c buf.length s (flow.setCarry c.direction []) buf
    let (s, flow) ← run (processPdu c) (stash c w) w.queue
    .ok { s with flows := s.flows.insert c.flowKey flow }

/-- `e.saturating_add(count)` for one command. -/
def addCommands (distribution : SortedMap UInt16 Nat) (e : UInt16 × Nat) : SortedMap UInt16 Nat :=
  distribution.insert e.1 (min ((distribution.get? e.1).getD 0 + e.2) (2 ^ 64 - 1))

def onFlowClose (s : EnipAnalyzer) (flowKey : FlowKey) : EnipAnalyzer :=
  match s.flows.get? flowKey with
  | none => s
  | some flow =>
    { s with
      flows := s.flows.erase flowKey
      totalPduCount := min (s.totalPduCount + flow.pduCount) (2 ^ 64 - 1)
      parseErrors := min (s.parseErrors + flow.parseErrors) (2 ^ 64 - 1)
      commandDistribution := flow.commandCounts.entries.foldl addCommands s.commandDistribution
      flowsAnalyzed := bump64 s.flowsAnalyzed }

end Wirerust.Enip
