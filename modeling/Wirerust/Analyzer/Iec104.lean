import Wirerust.Analyzer.Common

/-!
The IEC 60870-5-104 analyzer (`analyzer/iec104.rs`).

`on_data` collects the findings of a call in a list of its own and merges them into
`all_findings` at the end. `all_findings` and `dropped_findings` are the two fields of `findings`.
The loop is `walk`; it gets as many turns as there are bytes, and each turn takes at least one of
them. `position` is the offset in the buffer of the call, which one finding prints.
-/

namespace Wirerust.Iec104

open Lib Wirerust.Flow Wirerust.Analyzer

/-! ## Frames -/

structure ApciHeader where
  start : UInt8
  len : UInt8
  cf1 : UInt8
  cf2 : UInt8
  cf3 : UInt8
  cf4 : UInt8
  deriving DecidableEq, Repr

def parseApciHeader (data : List UInt8) : Option ApciHeader :=
  if data.length < 6 then none
  else if byteAt data 0 ≠ 0x68 then none
  else
    let len := byteAt data 1
    if len < 4 then none
    else if len > 253 then none
    else some ⟨0x68, len, byteAt data 2, byteAt data 3, byteAt data 4, byteAt data 5⟩

inductive FrameFormat
  | iFormat
  | sFormat
  | uFormat
  deriving DecidableEq, Repr

def classifyFrameFormat (cf1 : UInt8) : FrameFormat :=
  if cf1 &&& 0x01 = 0x00 then .iFormat
  else if cf1 &&& 0x03 = 0x01 then .sFormat
  else .uFormat

def uStartdtAct : UInt8 := 0x07

def uStartdtCon : UInt8 := 0x0b

def uStopdtAct : UInt8 := 0x13

def uStopdtCon : UInt8 := 0x23

def uTestfrAct : UInt8 := 0x43

def uTestfrCon : UInt8 := 0x83

def maxIec104CarryBytes : Nat := 255

structure Asdu where
  typeId : UInt8
  sq : Bool
  count : UInt8
  cotCause : UInt8
  cotPn : Bool
  cotTest : Bool
  cotOriginator : UInt8
  casdu : UInt16
  firstIoa : Option UInt32
  deriving DecidableEq, Repr

def parseAsdu (body : List UInt8) : Option Asdu :=
  if body.length < 6 then none
  else
    let count := byteAt body 1 &&& 0x7f
    some {
      typeId := byteAt body 0
      sq := byteAt body 1 &&& 0x80 != 0
      count := count
      cotCause := byteAt body 2 &&& 0x3f
      cotPn := byteAt body 2 &&& 0x40 != 0
      cotTest := byteAt body 2 &&& 0x80 != 0
      cotOriginator := byteAt body 3
      casdu := leU16 (byteAt body 4) (byteAt body 5)
      firstIoa :=
        if count > 0 && body.length ≥ 9 then
          some (leU32 (byteAt body 6) (byteAt body 7) (byteAt body 8) 0)
        else none }

def extractNs (cf1 cf2 : UInt8) : UInt16 := (cf1.toUInt16 >>> 1) ||| (cf2.toUInt16 <<< 7)

/-! ## State -/

structure Iec104FlowState where
  carryC2s : List UInt8 := []
  carryS2c : List UInt8 := []
  sessionStarted : Bool := false
  lastNsC2s : Option UInt16 := none
  lastNsS2c : Option UInt16 := none
  malformedLenReportedC2s : Bool := false
  malformedLenReportedS2c : Bool := false
  carryOverflowReportedC2s : Bool := false
  carryOverflowReportedS2c : Bool := false
  frameCount : Nat := 0
  deriving DecidableEq

namespace Iec104FlowState

def carry (flow : Iec104FlowState) : Direction → List UInt8
  | .clientToServer => flow.carryC2s
  | .serverToClient => flow.carryS2c

def setCarry (flow : Iec104FlowState) (dir : Direction) (bytes : List UInt8) : Iec104FlowState :=
  match dir with
  | .clientToServer => { flow with carryC2s := bytes }
  | .serverToClient => { flow with carryS2c := bytes }

def lastNs (flow : Iec104FlowState) : Direction → Option UInt16
  | .clientToServer => flow.lastNsC2s
  | .serverToClient => flow.lastNsS2c

def setLastNs (flow : Iec104FlowState) (dir : Direction) (ns : UInt16) : Iec104FlowState :=
  match dir with
  | .clientToServer => { flow with lastNsC2s := some ns }
  | .serverToClient => { flow with lastNsS2c := some ns }

def malformedLenReported (flow : Iec104FlowState) : Direction → Bool
  | .clientToServer => flow.malformedLenReportedC2s
  | .serverToClient => flow.malformedLenReportedS2c

def reportMalformedLen (flow : Iec104FlowState) : Direction → Iec104FlowState
  | .clientToServer => { flow with malformedLenReportedC2s := true }
  | .serverToClient => { flow with malformedLenReportedS2c := true }

def carryOverflowReported (flow : Iec104FlowState) : Direction → Bool
  | .clientToServer => flow.carryOverflowReportedC2s
  | .serverToClient => flow.carryOverflowReportedS2c

def reportCarryOverflow (flow : Iec104FlowState) : Direction → Iec104FlowState
  | .clientToServer => { flow with carryOverflowReportedC2s := true }
  | .serverToClient => { flow with carryOverflowReportedS2c := true }

end Iec104FlowState

structure Iec104Analyzer where
  flows : SortedMap FlowKey Iec104FlowState
  findings : Capped Finding
  flowsAnalyzed : Nat
  totalFramesClosed : Nat

def Iec104Analyzer.new : Iec104Analyzer where
  flows := .empty
  findings := ⟨[], 0⟩
  flowsAnalyzed := 0
  totalFramesClosed := 0

/-! ## Findings -/

/-- What is known of a call besides its bytes. -/
structure Delivery where
  flowKey : FlowKey
  ts : UInt32
  direction : Direction

/-- The server is the endpoint with port 2404; the upper one if the lower one has another. -/
def Delivery.sourceIp (c : Delivery) : IpAddr :=
  let (clientIp, serverIp) :=
    if c.flowKey.lowerPort = 2404 then (c.flowKey.upperIp, c.flowKey.lowerIp)
    else (c.flowKey.lowerIp, c.flowKey.upperIp)
  match c.direction with
  | .clientToServer => clientIp
  | .serverToClient => serverIp

def Delivery.finding (c : Delivery) (category : ThreatCategory) (verdict : Verdict)
    (summary : String) (evidence : List String) (technique : String) : Finding where
  category := category
  verdict := verdict
  confidence := .medium
  summary := summary
  evidence := evidence
  mitreTechniques := [technique]
  sourceIp := some c.sourceIp
  timestamp := some c.ts
  direction := some c.direction

/-! ## Frame handlers -/

/-- What a U-frame does to the session, and the finding it raises. -/
def uFrame (c : Delivery) (flow : Iec104FlowState) (cf1 : UInt8) :
    Iec104FlowState × Option Finding :=
  if cf1 = uStartdtAct ∨ cf1 = uStartdtCon then ({ flow with sessionStarted := true }, none)
  else if cf1 = uStopdtAct then
    ({ flow with sessionStarted := false }, some (c.finding .impact
      (if flow.sessionStarted then .possible else .likely)
      ("IEC-104 STOPDT-act received: CF1=" ++ hexByte cf1 ++ " — ICS data-transfer service stop " ++
        "request observed (T0881 inhibit-response-function; BC-2.19.011/012)")
      (["CF1=" ++ hexByte cf1 ++ " (STOPDT-act)"] ++
        (if flow.sessionStarted then []
          else ["STOPDT received without prior STARTDT on this flow"])) "T0881"))
  else if cf1 = uStopdtCon then ({ flow with sessionStarted := false }, none)
  else if cf1 = uTestfrAct ∨ cf1 = uTestfrCon then (flow, none)
  else (flow, some (c.finding .anomaly .possible
    ("IEC-104 non-canonical U-frame CF1=" ++ hexByte cf1 ++ ": CF1 bits1:0=0b11 but not in " ++
      "canonical set \x7b0x07,0x0B,0x13,0x23,0x43,0x83\x7d — potential CVE-2026-1773 " ++
      "denial-of-service attack (T0814; BC-2.19.014)")
    ["CF1=" ++ hexByte cf1 ++ " not in canonical U-frame set \x7bSTARTDT-act=0x07, " ++
      "STARTDT-con=0x0B, STOPDT-act=0x13, STOPDT-con=0x23, TESTFR-act=0x43, " ++
      "TESTFR-con=0x83\x7d"] "T0814"))

def processUFrame (c : Delivery) (flow : Iec104FlowState) (cf1 : UInt8) :
    Checked (Iec104FlowState × Option Finding) := do
  assertThat (classifyFrameFormat cf1 = .uFormat)
  .ok (uFrame c flow cf1)

/-- A finding about an ASDU names its address, and its first object if it has one. -/
def Asdu.finding (asdu : Asdu) (c : Delivery) (category : ThreatCategory) (verdict : Verdict)
    (summary evidence technique : String) : Finding :=
  c.finding category verdict (summary ++ (if asdu.cotTest then " [TEST]" else ""))
    ([evidence, "CASDU=" ++ toString asdu.casdu] ++
      (match asdu.firstIoa with
        | some ioa => ["first_ioa=" ++ toString ioa]
        | none => [])) technique

def detectIec104Threats (c : Delivery) (asdu : Asdu) : List Finding :=
  let typeId := asdu.typeId
  let named := "TypeID=" ++ toString typeId
  if 45 ≤ typeId ∧ typeId ≤ 47 then
    [asdu.finding c .impact .possible
      ("IEC-104 control command " ++ named ++ " (C_SC/C_DC/C_RC): switching control command " ++
        "observed on passive monitor (T1692.001 unauthorized command message; BC-2.19.019)")
      (named ++ " is a switching control command (C_SC/C_DC/C_RC)") "T1692.001"]
  else if 48 ≤ typeId ∧ typeId ≤ 51 then
    [asdu.finding c .impact .possible
      ("IEC-104 control command " ++ named ++ " (C_SE/C_BO): set-point or bitstring write " ++
        "command observed on passive monitor (T1692.001 unauthorized command message; " ++
        "BC-2.19.019)")
      (named ++ " is a set-point/bitstring write command (C_SE_NA/NB/NC or C_BO)") "T1692.001",
     asdu.finding c .impact .possible
      ("IEC-104 parameter modification " ++ named ++ " (C_SE/C_BO): set-point or bitstring " ++
        "write modifies ICS control parameters (T0836 modify parameter; BC-2.19.019 " ++
        "postcondition 2)")
      (named ++ " is a set-point/bitstring write; parameter modification") "T0836"]
  else if 58 ≤ typeId ∧ typeId ≤ 60 then
    [asdu.finding c .impact .possible
      ("IEC-104 time-tagged control command " ++ named ++ " (C_SC_TA/C_DC_TA/C_RC_TA): " ++
        "time-tagged switching control command observed on passive monitor (T1692.001 " ++
        "unauthorized command message; BC-2.19.029)")
      (named ++ " is a time-tagged switching control command (C_SC_TA/C_DC_TA/C_RC_TA)")
      "T1692.001"]
  else if 61 ≤ typeId ∧ typeId ≤ 64 then
    [asdu.finding c .impact .possible
      ("IEC-104 time-tagged control command " ++ named ++
        " (C_SE_TA/C_SE_TB/C_SE_TC/C_BO_TA): time-tagged set-point or bitstring write command " ++
        "observed on passive monitor (T1692.001 unauthorized command message; BC-2.19.030)")
      (named ++ " is a time-tagged set-point/bitstring write command " ++
        "(C_SE_TA/C_SE_TB/C_SE_TC/C_BO_TA)") "T1692.001",
     asdu.finding c .impact .possible
      ("IEC-104 time-tagged parameter modification " ++ named ++
        " (C_SE_TA/C_SE_TB/C_SE_TC/C_BO_TA): time-tagged set-point or bitstring write " ++
        "modifies ICS control parameters (T0836 modify parameter; BC-2.19.030 postcondition 2)")
      (named ++ " is a time-tagged set-point/bitstring write; parameter modification " ++
        "(C_SE_TA/C_SE_TB/C_SE_TC/C_BO_TA)") "T0836"]
  else if typeId = 105 then
    [asdu.finding c .impact .likely
      ("IEC-104 Reset Process command TypeID=105 (C_RP_NA_1): potential unauthorized RTU/IED " ++
        "process reset observed; adversarial use causes equipment to revert to default state " ++
        "(T0827 loss of control; BC-2.19.020)")
      "TypeID=105 (C_RP_NA_1: Reset Process Command)" "T0827"]
  else if typeId = 0 ∨ 128 ≤ typeId then
    [asdu.finding c .anomaly .possible
      ("IEC-104 reserved or invalid " ++ named ++ ": undefined or private-use TypeID " ++
        "indicates implementation error or adversarial protocol probe (T0814 denial of " ++
        "service; BC-2.19.022)")
      (named ++ " is " ++
        (if typeId = 0 then "undefined (TypeID 0 has no assigned meaning)"
          else "in the private-use/reserved range [128, 255]") ++ " per IEC 60870-5-104")
      "T0814"]
  else []

/-- A body that is too short for an ASDU is passed over. -/
def asduThreats (c : Delivery) (body : List UInt8) : List Finding :=
  match parseAsdu body with
  | some asdu => detectIec104Threats c asdu
  | none => []

/-- The first I-frame of a direction is only remembered. -/
def trackNsDesync (c : Delivery) (flow : Iec104FlowState) (currentNs : UInt16) :
    Iec104FlowState × List Finding :=
  (flow.setLastNs c.direction currentNs,
    match flow.lastNs c.direction with
    | none => []
    | some prev =>
      let gap := (currentNs - prev) &&& 0x7fff
      if gap > 12 then
        [c.finding .impact .possible
          ("IEC-104 N(S) sequence desync: N(S)=" ++ toString currentNs ++ " prev=" ++
            toString prev ++ " gap=" ++ toString gap ++ " > k=12 — sequence-number " ++
            "desynchronization detected; possible replay injection or adversarial " ++
            "manipulation (T1692.001 unauthorized command message; BC-2.19.024)")
          ["N(S) gap=" ++ toString gap ++ " exceeds k=12 window (current_ns=" ++
            toString currentNs ++ ", prev_ns=" ++ toString prev ++ ")"] "T1692.001"]
      else [])

/-! ## `on_data` -/

def processFrame (c : Delivery) (flow : Iec104FlowState) (frame : List UInt8) :
    Checked (Iec104FlowState × List Finding) :=
  match parseApciHeader frame with
  | none => .ok (flow, [])
  | some header =>
    let flow := { flow with frameCount := bump64 flow.frameCount }
    match classifyFrameFormat header.cf1 with
    | .uFormat => do
      let (flow, finding) ← processUFrame c flow header.cf1
      .ok (flow, finding.toList)
    | .iFormat =>
      let threats := asduThreats c (frame.drop 6)
      let (flow, desync) := trackNsDesync c flow (extractNs header.cf1 header.cf2)
      .ok (flow, threats ++ desync)
    | .sFormat => .ok (flow, [])

/-- The flow and the findings of the call so far. -/
structure Walking where
  flow : Iec104FlowState
  findings : List Finding

def malformedLenFinding (c : Delivery) (len : UInt8) (position : Nat) : Finding :=
  c.finding .anomaly .possible
    ("IEC-104 malformed LEN byte: 0x68 start byte followed by LEN=" ++ hexByteLower len ++ " (" ++
      toString len ++ ") outside valid range [4, 253] — protocol anomaly or adversarial " ++
      "framing attack (T0814; BC-2.19.026 invariant 5)")
    ["LEN=" ++ toString len ++ " not in [4, 253]; start byte=0x68 at buffer offset " ++
      toString position] "T0814"

/-- Reported once in each direction. -/
def malformedLen (c : Delivery) (w : Walking) (len : UInt8) (position : Nat) : Walking :=
  if !w.flow.malformedLenReported c.direction then
    ⟨w.flow.reportMalformedLen c.direction,
      w.findings ++ [malformedLenFinding c len position]⟩
  else w

/-- `carry.extend_from_slice(remaining)` -/
def Walking.stash (w : Walking) (dir : Direction) (remaining : List UInt8) : Walking :=
  { w with flow := w.flow.setCarry dir (w.flow.carry dir ++ remaining) }

def walk (c : Delivery) : Nat → Nat → Walking → List UInt8 → Checked Walking
  | 0, _, w, _ => .ok w
  | turns + 1, position, w, buf =>
    match buf with
    | [] => .ok w
    | [start] =>
      if start ≠ 0x68 then walk c turns (position + 1) w [] else .ok (w.stash c.direction buf)
    | start :: len :: _ =>
      if start ≠ 0x68 then walk c turns (position + 1) w (buf.drop 1)
      else if ¬(4 ≤ len ∧ len ≤ 253) then
        walk c turns (position + 2) (malformedLen c w len position) (buf.drop 2)
      else
        let frameLen := len.toNat + 2
        if buf.length < frameLen then .ok (w.stash c.direction buf)
        else do
          let (flow, findings) ← processFrame c w.flow (buf.take frameLen)
          walk c turns (position + frameLen) ⟨flow, w.findings ++ findings⟩ (buf.drop frameLen)

/-- A carry that is too long is dropped before the walk. -/
def dropLongCarry (c : Delivery) (flow : Iec104FlowState) : Walking :=
  if (flow.carry c.direction).length > maxIec104CarryBytes then
    let flow := flow.setCarry c.direction []
    if !flow.carryOverflowReported c.direction then
      ⟨flow.reportCarryOverflow c.direction, [c.finding .anomaly .possible
        ("IEC-104 directional carry residual overflow: carry buffer exceeded " ++
          "MAX_IEC104_CARRY_BYTES=255 — adversarial or non-conformant byte sequence; carry " ++
          "cleared and analyzer resyncs on next delivery (T0814; BC-2.19.025 v1.3 F-172-001)")
        ["carry overflow (>255); carry cleared"] "T0814"]⟩
    else ⟨flow, []⟩
  else ⟨flow, []⟩

/-- The findings of a call, as many as there is room for. -/
def mergeFindings (log : Capped Finding) (localFindings : List Finding) : Capped Finding :=
  let remainingCap := maxFindings - log.kept.length
  if localFindings.length > remainingCap then
    ⟨log.kept ++ localFindings.take remainingCap,
      min (log.dropped + (localFindings.length - remainingCap)) (2 ^ 64 - 1)⟩
  else ⟨log.kept ++ localFindings, log.dropped⟩

def onData (s : Iec104Analyzer) (c : Delivery) (data : List UInt8) : Checked Iec104Analyzer := do
  let w := dropLongCarry c ((s.flows.get? c.flowKey).getD {})
  let buf := w.flow.carry c.direction ++ data
  let w ← walk c buf.length 0 ⟨w.flow.setCarry c.direction [], w.findings⟩ buf
  .ok { s with
    flows := s.flows.insert c.flowKey w.flow
    findings := mergeFindings s.findings w.findings }

def onFlowClose (s : Iec104Analyzer) (flowKey : FlowKey) : Iec104Analyzer :=
  match s.flows.get? flowKey with
  | none => s
  | some flow =>
    { s with
      flows := s.flows.erase flowKey
      flowsAnalyzed := bump64 s.flowsAnalyzed
      totalFramesClosed := min (s.totalFramesClosed + flow.frameCount) (2 ^ 64 - 1) }

end Wirerust.Iec104
