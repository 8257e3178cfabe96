import Wirerust.Analyzer.Common

/-!
The Modbus TCP analyzer (`analyzer/modbus.rs`).

`process_pdu` and `on_data` take the flow out of the table, change it and put it back, so both
pass the analyzer and the flow side by side. The analyzer's `all_findings` and
`dropped_findings` are the two fields of `findings`.
-/

namespace Wirerust.Modbus

open Lib Wirerust.Flow Wirerust.Analyzer

/-! ## Headers and function codes -/

structure MbapHeader where
  transactionId : UInt16
  protocolId : UInt16
  length : UInt16
  unitId : UInt8
  functionCode : UInt8
  deriving DecidableEq, Repr

/-- At least the seven bytes of the header and the function code. -/
def parseMbapHeader : List UInt8 → Option MbapHeader
  | b0 :: b1 :: b2 :: b3 :: b4 :: b5 :: b6 :: b7 :: _ =>
    some ⟨beU16 b0 b1, beU16 b2 b3, beU16 b4 b5, b6, b7⟩
  | _ => none

def isValidModbusAdu (h : MbapHeader) : Bool :=
  h.protocolId == 0 && h.length ≥ 2 && h.length ≤ 254

inductive FunctionCodeClass
  | read
  | write
  | diagnostic
  | exception
  | unknown
  deriving DecidableEq, Repr

def classifyFc (fc : UInt8) : FunctionCodeClass :=
  if fc ≥ 0x80 then .exception
  else if fc ∈ [0x05, 0x06, 0x0f, 0x10, 0x15, 0x16, 0x17] then .write
  else if fc ∈ [0x08, 0x2b] then .diagnostic
  else if fc ∈ [0x01, 0x02, 0x03, 0x04, 0x07, 0x0b, 0x0c, 0x11, 0x14, 0x18] then .read
  else .unknown

def maxPendingTransactions : Nat := 256

def maxAduCarryBytes : Nat := 260

def t0831WindowSecs : UInt32 := 5

def writeBurstWindowSecs : UInt32 := 1

def writeSustainedWindowSecs : UInt32 := 2

def exceptionRateThreshold : Nat := 5

def exceptionWindowSecs : UInt32 := 10

/-! ## State -/

/-- A pending request is known by its transaction and unit. -/
abbrev TxnKey := UInt16 ×ₗ UInt8

structure ModbusFlowState where
  pending : SortedMap TxnKey (UInt8 × UInt32) := .empty
  writeCount : Nat := 0
  exceptionCount : Nat := 0
  pduCount : Nat := 0
  lastTs : UInt32 := 0
  windowWriteCount : Nat := 0
  windowStartTs : UInt32 := 0
  windowBurstEmitted : Bool := false
  sustainedWindowStartTs : UInt32 := 0
  sustainedWindowWriteCount : Nat := 0
  sustainedBurstEmitted : Bool := false
  t0831WindowStartTs : UInt32 := 0
  t0831WindowWriteCount : Nat := 0
  t0831BurstEmitted : Bool := false
  exceptionWindowCounts : SortedMap UInt8 Nat := .empty
  exceptionWindowStartTs : SortedMap UInt8 UInt32 := .empty
  exceptionBurstEmitted : SortedMap UInt8 Bool := .empty
  isNonModbus : Bool := false
  carryC2s : List UInt8 := []
  carryS2c : List UInt8 := []

namespace ModbusFlowState

def carry (flow : ModbusFlowState) : Direction → List UInt8
  | .clientToServer => flow.carryC2s
  | .serverToClient => flow.carryS2c

def setCarry (flow : ModbusFlowState) (dir : Direction) (bytes : List UInt8) : ModbusFlowState :=
  match dir with
  | .clientToServer => { flow with carryC2s := bytes }
  | .serverToClient => { flow with carryS2c := bytes }

/-- Also the entry that has been overwritten. -/
def insertRequest (flow : ModbusFlowState) (txnId : UInt16) (unitId fc : UInt8) (ts : UInt32) :
    ModbusFlowState × Option (UInt8 × UInt32) :=
  let key := toLex (txnId, unitId)
  match flow.pending.get? key with
  | some old => ({ flow with pending := flow.pending.insert key (fc, ts) }, some old)
  | none =>
    if flow.pending.size ≥ maxPendingTransactions then (flow, none)
    else ({ flow with pending := flow.pending.insert key (fc, ts) }, none)

def matchResponse (flow : ModbusFlowState) (txnId : UInt16) (unitId : UInt8) :
    ModbusFlowState × Option (UInt8 × UInt32) :=
  let key := toLex (txnId, unitId)
  ({ flow with pending := flow.pending.erase key }, flow.pending.get? key)

/-- An exception closes its request only if it is about the same function. -/
def attributeException (flow : ModbusFlowState) (txnId : UInt16) (unitId exceptionFc : UInt8) :
    ModbusFlowState × Option UInt8 :=
  let originalFc := exceptionFc &&& 0x7f
  let key := toLex (txnId, unitId)
  match flow.pending.get? key with
  | some (storedFc, _) =>
    if storedFc = originalFc then
      ({ flow with pending := flow.pending.erase key }, some originalFc)
    else (flow, none)
  | none => (flow, none)

end ModbusFlowState

structure ModbusAnalyzer where
  writeBurstThreshold : UInt32
  writeSustainedThreshold : UInt32
  duplicateInflightTxn : Nat
  totalPduCount : Nat
  totalWriteCount : Nat
  totalExceptionCount : Nat
  parseErrors : Nat
  fnCodeCounts : SortedMap UInt8 Nat
  findings : Capped Finding
  droppedTransactions : Nat
  totalFlowsAnalyzed : Nat
  flows : SortedMap FlowKey ModbusFlowState

def ModbusAnalyzer.new (writeBurstThreshold writeSustainedThreshold : UInt32) :
    ModbusAnalyzer where
  writeBurstThreshold := writeBurstThreshold
  writeSustainedThreshold := writeSustainedThreshold
  duplicateInflightTxn := 0
  totalPduCount := 0
  totalWriteCount := 0
  totalExceptionCount := 0
  parseErrors := 0
  fnCodeCounts := .empty
  findings := ⟨[], 0⟩
  droppedTransactions := 0
  totalFlowsAnalyzed := 0
  flows := .empty

/-! ## `process_pdu` -/

/-- What `process_pdu` is given besides the analyzer and the flow; `data` is the whole ADU. -/
structure Pdu where
  flowKey : FlowKey
  direction : Direction
  header : MbapHeader
  fc : UInt8
  data : List UInt8
  timestamp : UInt32

namespace Pdu

/-- The server is the endpoint with port 502; the lower one if both have it, the upper one if
neither has. -/
def clientIp (p : Pdu) : IpAddr :=
  if p.flowKey.lowerPort = 502 then p.flowKey.upperIp else p.flowKey.lowerIp

def serverIp (p : Pdu) : IpAddr :=
  if p.flowKey.lowerPort = 502 then p.flowKey.lowerIp else p.flowKey.upperIp

def srcIp (p : Pdu) : IpAddr :=
  match p.direction with
  | .clientToServer => p.clientIp
  | .serverToClient => p.serverIp

def txn (p : Pdu) : String :=
  "TxnID=" ++ hexWord p.header.transactionId ++ " UnitID=" ++ toString p.header.unitId

end Pdu

def reconFinding (p : Pdu) (confidence : Confidence) (summary evidence : String)
    (mitreTechniques : List String) : Finding where
  category := .anomaly
  verdict := .inconclusive
  confidence := confidence
  summary := summary ++ toString p.header.unitId
  evidence := [evidence ++ p.txn]
  mitreTechniques := mitreTechniques
  sourceIp := some p.srcIp
  timestamp := some p.timestamp
  direction := some p.direction

/-- Found in either direction. -/
def reconFindings (p : Pdu) : List Finding :=
  if p.fc = 0x11 then
    [reconFinding p .medium "Modbus recon: Report Server ID (FC 0x11) from unit " "FC=0x11 "
      ["T0888"]]
  else if p.fc = 0x2b then
    if p.data[8]? = some 0x0e then
      [reconFinding p .medium
        "Modbus recon: Read Device Identification (MEI 0x2B/0x0E) on unit "
        "FC=0x2B MEI type=0x0E " ["T0888"]]
    else []
  else if classifyFc p.fc = .unknown then
    [reconFinding p .low ("Modbus unknown function code: " ++ hexByte p.fc ++ " on unit ")
      ("FC=" ++ hexByte p.fc ++ " ") []]
  else []

/-- The request goes into the pending table, unless it is an exception. -/
def registerRequest (s : ModbusAnalyzer) (flow : ModbusFlowState) (p : Pdu) :
    ModbusAnalyzer × ModbusFlowState :=
  if classifyFc p.fc ≠ .exception then
    let key := toLex (p.header.transactionId, p.header.unitId)
    let s :=
      if (flow.pending.get? key).isNone && flow.pending.size ≥ maxPendingTransactions then
        { s with droppedTransactions := bump64 s.droppedTransactions }
      else s
    let (flow, overwrite) :=
      flow.insertRequest p.header.transactionId p.header.unitId p.fc p.timestamp
    let s :=
      if overwrite.isSome then
        { s with duplicateInflightTxn := bump64 s.duplicateInflightTxn }
      else s
    (s, flow)
  else (s, flow)

def isRegisterWrite (fc : UInt8) : Bool := fc ∈ [0x06, 0x10, 0x16, 0x17]

def isCoilWrite (fc : UInt8) : Bool := fc ∈ [0x05, 0x0f]

/-- The window of coordinated register writes; the flag says that it has just been crossed. -/
def coordinatedWrite (flow : ModbusFlowState) (p : Pdu) : ModbusFlowState × Bool :=
  if isRegisterWrite p.fc then
    if saturatingSub p.timestamp flow.t0831WindowStartTs > t0831WindowSecs then
      ({ flow with
        t0831WindowStartTs := p.timestamp
        t0831WindowWriteCount := 1
        t0831BurstEmitted := false }, false)
    else
      let flow := { flow with t0831WindowWriteCount := bump32 flow.t0831WindowWriteCount }
      if flow.t0831WindowWriteCount ≥ 2 && !flow.t0831BurstEmitted then
        ({ flow with t0831BurstEmitted := true }, true)
      else (flow, false)
  else (flow, false)

def writeTechniques (fc : UInt8) (coordinated : Bool) : List String :=
  ["T1692.001"] ++
    (if isRegisterWrite fc then ["T0836"] else if isCoilWrite fc then ["T0835"] else []) ++
    (if coordinated then ["T0831"] else [])

def writeFinding (p : Pdu) (coordinated : Bool) : Finding where
  category := .execution
  verdict := .likely
  confidence := .medium
  summary := "Modbus write command observed: FC " ++ hexByte p.fc ++ " from unit " ++
    toString p.header.unitId
  evidence := ["FC=" ++ hexByte p.fc ++ " " ++ p.txn ++ " ADU bytes 0.." ++
    toString p.data.length]
  mitreTechniques := writeTechniques p.fc coordinated
  sourceIp := some p.clientIp
  timestamp := some p.timestamp
  direction := some p.direction

def burstFinding (p : Pdu) (summary evidence : String) : Finding where
  category := .execution
  verdict := .likely
  confidence := .high
  summary := summary
  evidence := [evidence ++ " FC=" ++ hexByte p.fc ++ " UnitID=" ++ toString p.header.unitId]
  mitreTechniques := ["T0806", "T1692.001"]
  sourceIp := some p.clientIp
  timestamp := some p.timestamp
  direction := some p.direction

/-- The burst detector, a window of one second. -/
def writeBurst (threshold : UInt32) (flow : ModbusFlowState) (p : Pdu) :
    ModbusFlowState × List Finding :=
  if saturatingSub p.timestamp flow.windowStartTs > writeBurstWindowSecs then
    ({ flow with
      windowStartTs := p.timestamp
      windowWriteCount := 1
      windowBurstEmitted := false }, [])
  else
    let flow := { flow with windowWriteCount := bump32 flow.windowWriteCount }
    let count := toString flow.windowWriteCount
    if flow.windowWriteCount > threshold.toNat && !flow.windowBurstEmitted then
      ({ flow with windowBurstEmitted := true }, [burstFinding p
        ("Modbus write burst: " ++ count ++ " writes within " ++ toString writeBurstWindowSecs ++
          "s window (unit " ++ toString p.header.unitId ++ ", threshold " ++ toString threshold ++
          "/s)")
        ("Burst threshold exceeded: " ++ count ++ " write FCs in 1s window; window_write_count=" ++
          count ++ " window_start_ts=" ++ toString flow.windowStartTs ++ " threshold=" ++
          toString threshold)])
    else (flow, [])

/-- The sustained detector, a window of at least two seconds. -/
def sustainedBurst (threshold : UInt32) (flow : ModbusFlowState) (p : Pdu) :
    ModbusFlowState × List Finding :=
  if flow.sustainedWindowWriteCount = 0 then
    ({ flow with
      sustainedWindowStartTs := p.timestamp
      sustainedWindowWriteCount := 1
      sustainedBurstEmitted := false }, [])
  else
    let flow :=
      { flow with sustainedWindowWriteCount := bump32 flow.sustainedWindowWriteCount }
    let elapsedSecs := saturatingSub p.timestamp flow.sustainedWindowStartTs
    let count := toString flow.sustainedWindowWriteCount
    let (flow, findings) :=
      if elapsedSecs ≥ writeSustainedWindowSecs && !flow.sustainedBurstEmitted &&
          flow.sustainedWindowWriteCount > threshold.toNat * elapsedSecs.toNat then
        ({ flow with sustainedBurstEmitted := true }, [burstFinding p
          ("Modbus write burst: " ++ count ++ " writes over " ++ toString elapsedSecs ++
            "s window (unit " ++ toString p.header.unitId ++ ", >" ++ toString threshold ++
            "/s avg)")
          ("Sustained write rate exceeded: " ++ count ++ " writes over " ++
            toString elapsedSecs ++ " seconds (>" ++ toString threshold ++
            "/s average); sustained_window_start_ts=" ++ toString flow.sustainedWindowStartTs)])
      else (flow, [])
    if elapsedSecs ≥ writeSustainedWindowSecs then
      ({ flow with
        sustainedWindowStartTs := p.timestamp
        sustainedWindowWriteCount := 1
        sustainedBurstEmitted := false }, findings)
    else (flow, findings)

def processWrite (s : ModbusAnalyzer) (flow : ModbusFlowState) (p : Pdu) :
    ModbusAnalyzer × ModbusFlowState × List Finding :=
  let s := { s with totalWriteCount := bump64 s.totalWriteCount }
  let flow := { flow with writeCount := bump64 flow.writeCount }
  let (flow, coordinated) := coordinatedWrite flow p
  let (flow, burst) := writeBurst s.writeBurstThreshold flow p
  let (flow, sustained) := sustainedBurst s.writeSustainedThreshold flow p
  (s, flow, writeFinding p coordinated :: (burst ++ sustained))

/-- Diagnostics (0x08) with a sub-function that denies service or clears the counters. -/
def diagnosticFindings (p : Pdu) : List Finding :=
  if p.fc = 0x08 then
    match p.data[8]?, p.data[9]? with
    | some hi, some lo =>
      let subFunc := beU16 hi lo
      if subFunc = 0x0001 ∨ subFunc = 0x0004 then
        [{
          category := .anomaly
          verdict := .likely
          confidence := .high
          summary := "Modbus Diagnostics DoS sub-function " ++ hexWord subFunc ++ " detected"
          evidence := ["FC=0x08 sub-func=" ++ hexWord subFunc ++ " unit_id=" ++
            hexByte p.header.unitId]
          mitreTechniques := ["T0814"]
          sourceIp := some p.clientIp
          timestamp := some p.timestamp
          direction := some p.direction }]
      else if subFunc = 0x000a then
        [{
          category := .anomaly
          verdict := .inconclusive
          confidence := .medium
          summary := "Modbus anti-forensic: Clear Counters (0x08/0x000A) sent to unit " ++
            toString p.header.unitId
          evidence := ["FC=0x08 SubFunc=0x000A " ++ p.txn]
          mitreTechniques := []
          sourceIp := some p.clientIp
          timestamp := some p.timestamp
          direction := some p.direction }]
      else []
    | _, _ => []
  else []

def processRequest (s : ModbusAnalyzer) (flow : ModbusFlowState) (p : Pdu) :
    ModbusAnalyzer × ModbusFlowState × List Finding :=
  let (s, flow) := registerRequest s flow p
  match classifyFc p.fc with
  | .write => processWrite s flow p
  | .diagnostic => (s, flow, diagnosticFindings p)
  | _ => (s, flow, [])

def exceptionSummary (p : Pdu) (excCode : UInt8) (count : Nat) : String :=
  let unit := "(unit " ++ toString p.header.unitId ++ ")"
  if excCode = 0x01 then
    "Modbus recon: " ++ toString count ++ " Illegal Function exceptions in window " ++ unit ++
      " — possible FC scanning"
  else if excCode = 0x02 then
    "Modbus recon: " ++ toString count ++ " Illegal Data Address exceptions in window " ++ unit ++
      " — possible register map enumeration"
  else
    "Modbus exception anomaly: " ++ toString count ++ " exceptions code " ++ hexByte excCode ++
      " in window " ++ unit

def exceptionFinding (p : Pdu) (excCode : UInt8) (count : Nat) : Finding where
  category := .anomaly
  verdict := .inconclusive
  confidence := .medium
  summary := exceptionSummary p excCode count
  evidence := ["exception_fc=" ++ hexByte p.fc ++ " exception_code=" ++ hexByte excCode ++
    " window_count=" ++ toString count ++ " original_fc=" ++ hexByte (p.fc &&& 0x7f)]
  mitreTechniques := if excCode = 0x01 ∨ excCode = 0x02 then ["T0888"] else []
  sourceIp := some p.serverIp
  timestamp := some p.timestamp
  direction := some p.direction

/-- The window of each exception code. -/
def exceptionBurst (flow : ModbusFlowState) (p : Pdu) :
    Checked (ModbusFlowState × List Finding) :=
  let excCode := p.data[8]?.getD 0xff
  let start := (flow.exceptionWindowStartTs.get? excCode).getD p.timestamp
  if saturatingSub p.timestamp start > exceptionWindowSecs then
    .ok ({ flow with
      exceptionWindowCounts := flow.exceptionWindowCounts.insert excCode 1
      exceptionWindowStartTs := flow.exceptionWindowStartTs.insert excCode p.timestamp
      exceptionBurstEmitted := flow.exceptionBurstEmitted.insert excCode false }, [])
  else do
    let (counts, count) ← countEntry 32 flow.exceptionWindowCounts excCode
    let flow := { flow with
      exceptionWindowStartTs := flow.exceptionWindowStartTs.insert excCode start
      exceptionWindowCounts := counts }
    if count > exceptionRateThreshold && !(flow.exceptionBurstEmitted.get? excCode).getD false then
      .ok ({ flow with exceptionBurstEmitted := flow.exceptionBurstEmitted.insert excCode true },
        [exceptionFinding p excCode count])
    else .ok (flow, [])

def processResponse (s : ModbusAnalyzer) (flow : ModbusFlowState) (p : Pdu) :
    Checked (ModbusAnalyzer × ModbusFlowState × List Finding) :=
  if classifyFc p.fc = .exception then do
    let s := { s with totalExceptionCount := bump64 s.totalExceptionCount }
    let flow := { flow with exceptionCount := bump64 flow.exceptionCount }
    let (flow, _) := flow.attributeException p.header.transactionId p.header.unitId p.fc
    let (flow, findings) ← exceptionBurst flow p
    .ok (s, flow, findings)
  else
    let (flow, _) := flow.matchResponse p.header.transactionId p.header.unitId
    .ok (s, flow, [])

/-- The counters of every PDU. -/
def countPdu (s : ModbusAnalyzer) (flow : ModbusFlowState) (p : Pdu) :
    Checked (ModbusAnalyzer × ModbusFlowState) := do
  let s := if flow.pduCount = 0 then
      { s with totalFlowsAnalyzed := bump64 s.totalFlowsAnalyzed } else s
  let flow := { flow with pduCount := bump64 flow.pduCount, lastTs := p.timestamp }
  let (counts, _) ← countEntry 64 s.fnCodeCounts p.fc
  .ok ({ s with totalPduCount := bump64 s.totalPduCount, fnCodeCounts := counts }, flow)

/-- The part that depends on the direction. -/
def processDirected (s : ModbusAnalyzer) (flow : ModbusFlowState) (p : Pdu) :
    Checked (ModbusAnalyzer × ModbusFlowState × List Finding) :=
  match p.direction with
  | .clientToServer => .ok (processRequest s flow p)
  | .serverToClient => processResponse s flow p

def processPdu (s : ModbusAnalyzer) (flow : ModbusFlowState) (p : Pdu) :
    Checked (ModbusAnalyzer × ModbusFlowState × List Finding) := do
  let (s, flow) ← countPdu s flow p
  let (s, flow, found) ← processDirected s flow p
  let localFindings := reconFindings p ++ found
  .ok ({ s with findings := localFindings.foldl pushFinding s.findings }, flow, localFindings)

/-! ## `on_data` -/

/-- The tail of the data waits in the carry of its direction; both tests are never met. -/
def stash (s : ModbusAnalyzer) (flow : ModbusFlowState) (dir : Direction)
    (remaining : List UInt8) : ModbusAnalyzer × ModbusFlowState :=
  if (flow.carry dir).length + remaining.length > maxAduCarryBytes then
    ({ s with parseErrors := bump64 s.parseErrors }, { flow with isNonModbus := true })
  else (s, flow.setCarry dir (flow.carry dir ++ remaining))

/-- The loop of `on_data`; there are never more turns than bytes. -/
def walk (flowKey : FlowKey) (dir : Direction) (timestamp : UInt32) :
    Nat → ModbusAnalyzer → ModbusFlowState → List UInt8 →
      Checked (ModbusAnalyzer × ModbusFlowState)
  | 0, s, flow, _ => .ok (s, flow)
  | turns + 1, s, flow, remaining =>
    if remaining.isEmpty then
      .ok (s, flow)
    else
      match parseMbapHeader remaining with
      | none => .ok (stash s flow dir remaining)
      | some header =>
        if !isValidModbusAdu header then
          .ok ({ s with parseErrors := bump64 s.parseErrors },
            { flow with isNonModbus := true, carryC2s := [], carryS2c := [] })
        else
          let aduLen := 6 + header.length.toNat
          if remaining.length < aduLen then
            .ok (stash s flow dir remaining)
          else do
            let (s, flow, _) ← processPdu s flow
              ⟨flowKey, dir, header, header.functionCode, remaining.take aduLen, timestamp⟩
            walk flowKey dir timestamp turns s flow (remaining.drop aduLen)

def onData (s : ModbusAnalyzer) (flowKey : FlowKey) (dir : Direction) (data : List UInt8)
    (timestamp : UInt32) : Checked ModbusAnalyzer := do
  let flow := (s.flows.get? flowKey).getD {}
  let s := { s with flows := s.flows.erase flowKey }
  if flow.isNonModbus then
    .ok { s with flows := s.flows.insert flowKey flow }
  else
    let buf := flow.carry dir ++ data
    let flow := flow.setCarry dir []
    let (s, flow) ← walk flowKey dir timestamp buf.length s flow buf
    .ok { s with flows := s.flows.insert flowKey flow }

def onFlowClose (s : ModbusAnalyzer) (flowKey : FlowKey) : ModbusAnalyzer :=
  { s with flows := s.flows.erase flowKey }

end Wirerust.Modbus
