import Wirerust.Analyzer.Common

/-!
ISO-on-TCP framing (`analyzer/iso_on_tcp.rs`) and the S7comm analyzer (`analyzer/s7comm.rs`).

`on_data` collects the findings of a call in a list of its own and appends them to `findings` at
the end; there is no cap. Its loop is `walk`, which gets as many turns as there are bytes, and
each turn takes at least one of them; a turn that finds no header runs the inner loop
`resyncOneByte`. The cursor is given by the bytes after it.
-/

namespace Wirerust.S7comm

open Lib Wirerust.Flow Wirerust.Analyzer

/-! ## TPKT and COTP headers -/

structure TpktHeader where
  version : UInt8
  length : UInt16
  deriving DecidableEq, Repr

def parseTpktHeader (data : List UInt8) : Option TpktHeader :=
  if data.length < 4 then none
  else if byteAt data 0 ≠ 0x03 then none
  else
    let length := beU16 (byteAt data 2) (byteAt data 3)
    if length < 7 then none else some ⟨0x03, length⟩

inductive CotpTpduType
  | connectRequest
  | connectConfirm
  | dataTransfer
  deriving DecidableEq, Repr

structure CotpHeader where
  tpduType : CotpTpduType
  protocolId : Option UInt8
  payloadOffset : Nat
  deriving DecidableEq, Repr

def parseCotpHeader (tpktPayload : List UInt8) : Option CotpHeader :=
  if tpktPayload.length < 2 then none
  else
    let li := (byteAt tpktPayload 0).toNat
    if tpktPayload.length < 1 + li then none
    else
      let payloadOffset := 1 + li
      let tpduKind := byteAt tpktPayload 1 &&& 0xf0
      if tpduKind = 0xe0 then some ⟨.connectRequest, none, payloadOffset⟩
      else if tpduKind = 0xd0 then some ⟨.connectConfirm, none, payloadOffset⟩
      else if tpduKind = 0xf0 then
        some ⟨.dataTransfer,
          if tpktPayload.length > payloadOffset then some (byteAt tpktPayload payloadOffset)
          else none, payloadOffset⟩
      else none

/-! ## S7comm headers -/

inductive S7Protocol
  | classic
  | plus
  | unclassified
  deriving DecidableEq, Repr

inductive Rosctr
  | job
  | ack
  | ackData
  | userdata
  deriving DecidableEq, Repr

structure S7commHeader where
  rosctr : Rosctr
  pduReference : UInt16
  paramLength : UInt16
  dataLength : UInt16
  errorClass : Option UInt8
  errorCode : Option UInt8
  headerLen : Nat
  deriving DecidableEq, Repr

def parseS7commHeader (data : List UInt8) : Option S7commHeader :=
  if data.length < 10 then none
  else if byteAt data 0 ≠ 0x32 then none
  else
    let pduReference := beU16 (byteAt data 4) (byteAt data 5)
    let paramLength := beU16 (byteAt data 6) (byteAt data 7)
    let dataLength := beU16 (byteAt data 8) (byteAt data 9)
    let kind := byteAt data 1
    if kind = 0x01 then some ⟨.job, pduReference, paramLength, dataLength, none, none, 10⟩
    else if kind = 0x07 then
      some ⟨.userdata, pduReference, paramLength, dataLength, none, none, 10⟩
    else if kind = 0x02 ∨ kind = 0x03 then
      if data.length < 12 then none
      else some ⟨if kind = 0x02 then .ack else .ackData, pduReference, paramLength, dataLength,
        some (byteAt data 10), some (byteAt data 11), 12⟩
    else none

/-- The sum stays far below the size of a `usize`, so the checked additions never fail. -/
def s7commBoundsOk (header : S7commHeader) (dataLen : Nat) : Bool :=
  dataLen ≥ header.headerLen + header.paramLength.toNat + header.dataLength.toNat

def maxS7IsoOnTcpCarryBytes : Nat := 65535

/-! ## State -/

structure S7commFlowState where
  carryC2s : List UInt8 := []
  carryS2c : List UInt8 := []
  carryOverflowReportedC2s : Bool := false
  carryOverflowReportedS2c : Bool := false
  sessionEstablished : Bool := false
  crObservedDir : Option Direction := none
  classifiedProtocol : Option S7Protocol := none
  malformedHeaderReportedC2s : Bool := false
  malformedHeaderReportedS2c : Bool := false
  deriving DecidableEq

namespace S7commFlowState

def carry (flow : S7commFlowState) : Direction → List UInt8
  | .clientToServer => flow.carryC2s
  | .serverToClient => flow.carryS2c

def setCarry (flow : S7commFlowState) (dir : Direction) (bytes : List UInt8) : S7commFlowState :=
  match dir with
  | .clientToServer => { flow with carryC2s := bytes }
  | .serverToClient => { flow with carryS2c := bytes }

def carryOverflowReported (flow : S7commFlowState) : Direction → Bool
  | .clientToServer => flow.carryOverflowReportedC2s
  | .serverToClient => flow.carryOverflowReportedS2c

def reportCarryOverflow (flow : S7commFlowState) : Direction → S7commFlowState
  | .clientToServer => { flow with carryOverflowReportedC2s := true }
  | .serverToClient => { flow with carryOverflowReportedS2c := true }

def malformedHeaderReported (flow : S7commFlowState) : Direction → Bool
  | .clientToServer => flow.malformedHeaderReportedC2s
  | .serverToClient => flow.malformedHeaderReportedS2c

def setMalformedHeaderReported (flow : S7commFlowState) : Direction → S7commFlowState
  | .clientToServer => { flow with malformedHeaderReportedC2s := true }
  | .serverToClient => { flow with malformedHeaderReportedS2c := true }

end S7commFlowState

structure S7commAnalyzer where
  flows : SortedMap FlowKey S7commFlowState
  findings : List Finding

def S7commAnalyzer.new : S7commAnalyzer where
  flows := .empty
  findings := []

/-! ## Frames -/

/-- What is known of a call besides its bytes. -/
structure Delivery where
  flowKey : FlowKey
  ts : UInt32
  direction : Direction

def Delivery.finding (c : Delivery) (summary evidence : String) : Finding where
  category := .anomaly
  verdict := .possible
  confidence := .medium
  summary := summary
  evidence := [evidence]
  mitreTechniques := ["T0814"]
  sourceIp := none
  timestamp := some c.ts
  direction := some c.direction

/-- Reported once in each direction. -/
def reportMalformedHeader (c : Delivery) (flow : S7commFlowState) (reason : String) :
    S7commFlowState × List Finding :=
  if flow.malformedHeaderReported c.direction then (flow, [])
  else (flow.setMalformedHeaderReported c.direction, [c.finding
    ("Malformed classic S7comm header: " ++ reason ++ " (T0814; BC-2.21.004/007/008/009)")
    reason])

def classifyMalformedHeaderReason (payload : List UInt8) : String :=
  let available := toString payload.length ++ " byte(s) available, "
  if payload.length < 10 then "header too short: " ++ available ++ "10 required (BC-2.21.004)"
  else if byteAt payload 0 ≠ 0x32 then
    "unexpected protocol-ID byte " ++ hexByteLower (byteAt payload 0) ++
      " (expected 0x32, BC-2.21.005)"
  else if byteAt payload 1 = 0x02 then
    "truncated Ack header: " ++ available ++ "12 required (BC-2.21.008)"
  else if byteAt payload 1 = 0x03 then
    "truncated Ack_Data header: " ++ available ++
      "12 required (BC-2.21.008, DF-CANONICAL-FRAME-HOLDOUT-001)"
  else "unrecognized ROSCTR byte " ++ hexByteLower (byteAt payload 1) ++ " (BC-2.21.007)"

def dispatchClassicS7comm (c : Delivery) (flow : S7commFlowState) (payload : List UInt8) :
    Checked (S7commFlowState × List Finding) := do
  assertThat (payload.head? = some 0x32)
  match parseS7commHeader payload with
  | none => .ok (reportMalformedHeader c flow (classifyMalformedHeaderReason payload))
  | some header =>
    if s7commBoundsOk header payload.length then .ok (flow, [])
    else
      let declared := header.headerLen + header.paramLength.toNat + header.dataLength.toNat
      .ok (reportMalformedHeader c flow
        ("declared param_length/data_length exceed available bytes: declared " ++
          toString declared ++ " (header_len=" ++ toString header.headerLen ++
          " + param_length=" ++ toString header.paramLength ++ " + data_length=" ++
          toString header.dataLength ++ "), available " ++ toString payload.length ++
          " (BC-2.21.009)"))

/-- The first frame with a protocol byte decides, and an empty one does not. -/
def classifyFirstDtFrame (flow : S7commFlowState) (protocolId : Option UInt8) : S7commFlowState :=
  match protocolId with
  | none => flow
  | some byte =>
    if flow.classifiedProtocol.isSome then flow
    else
      let protocol : S7Protocol :=
        if byte = 0x32 then .classic else if byte = 0x72 then .plus else .unclassified
      { flow with classifiedProtocol := some protocol }

def dispatchCotpFrame (c : Delivery) (flow : S7commFlowState) (cotp : Option CotpHeader)
    (tpktPayload : List UInt8) : Checked (S7commFlowState × List Finding) :=
  match cotp with
  | none => .ok (flow, [])
  | some header =>
    match header.tpduType with
    | .connectRequest => .ok ({ flow with crObservedDir := some c.direction }, [])
    | .connectConfirm =>
      match flow.crObservedDir with
      | none => .ok (flow, [])
      | some crDir =>
        if crDir ≠ c.direction then .ok ({ flow with sessionEstablished := true }, [])
        else .ok (flow, [])
    | .dataTransfer =>
      let flow := classifyFirstDtFrame flow header.protocolId
      if header.protocolId = some 0x32 then
        if flow.classifiedProtocol = some .classic then do
          let payload ← slice tpktPayload header.payloadOffset tpktPayload.length
          dispatchClassicS7comm c flow payload
        else .ok (flow, [])
      else .ok (flow, [])

/-! ## `on_data` -/

def resyncOneByte : List UInt8 → List UInt8
  | [] => []
  | b :: rest =>
    if (b :: rest).length ≥ 4 ∧ parseTpktHeader (b :: rest) = none then resyncOneByte rest
    else b :: rest

/-- The flow, the findings of the call so far, and what is left over. -/
structure Walked where
  flow : S7commFlowState
  findings : List Finding
  remainder : List UInt8

def walk (c : Delivery) :
    Nat → S7commFlowState → List Finding → List UInt8 → Checked Walked
  | 0, flow, findings, working => .ok ⟨flow, findings, working⟩
  | turns + 1, flow, findings, working =>
    if working.length < 4 then .ok ⟨flow, findings, working⟩
    else
      match parseTpktHeader working with
      | some header =>
        let total := header.length.toNat
        if working.length ≥ total then do
          let tpktPayload := (working.take total).drop 4
          let (flow, raised) ← dispatchCotpFrame c flow (parseCotpHeader tpktPayload) tpktPayload
          walk c turns flow (findings ++ raised) (working.drop total)
        else .ok ⟨flow, findings, working⟩
      | none => walk c turns flow findings (resyncOneByte working)

/-- A carry that is too long is dropped before the walk. -/
def dropLongCarry (c : Delivery) (flow : S7commFlowState) : S7commFlowState × List Finding :=
  if (flow.carry c.direction).length > maxS7IsoOnTcpCarryBytes then
    let flow := flow.setCarry c.direction []
    if !flow.carryOverflowReported c.direction then
      (flow.reportCarryOverflow c.direction, [c.finding
        ("S7comm/ISO-on-TCP directional carry residual overflow: carry buffer exceeded " ++
          "MAX_S7_ISO_ON_TCP_CARRY_BYTES=65535 — adversarial or non-conformant byte sequence; " ++
          "carry cleared and the walk resyncs on this delivery (T0814; BC-2.20.014)")
        "carry overflow (>65535); carry cleared"])
    else (flow, [])
  else (flow, [])

def onData (s : S7commAnalyzer) (c : Delivery) (data : List UInt8) : Checked S7commAnalyzer := do
  let (flow, findings) := dropLongCarry c ((s.flows.get? c.flowKey).getD {})
  let working := flow.carry c.direction ++ data
  let w ← walk c working.length (flow.setCarry c.direction []) findings working
  .ok {
    flows := s.flows.insert c.flowKey (w.flow.setCarry c.direction w.remainder)
    findings := s.findings ++ w.findings }

def onFlowClose (s : S7commAnalyzer) (flowKey : FlowKey) : S7commAnalyzer :=
  { s with flows := s.flows.erase flowKey }

end Wirerust.S7comm
