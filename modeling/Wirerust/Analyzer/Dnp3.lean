import Wirerust.Analyzer.Common

/-!
The DNP3 analyzer (`analyzer/dnp3.rs`).

`on_data` works on the entry of the flow table in place; here the analyzer and the flow are passed
side by side, and the flow is put back at the end. `all_findings` and `dropped_findings` are the
two fields of `findings`. The loop of `on_data` is `turn`, taken until it stops.

When the table of pending requests is full, the oldest one goes; among equally old ones it is the
first in the order of the hash map, which is unspecified. A `PendingOrder` fixes that order for
every eviction of a run (`evictions` counts them), and every theorem is about an arbitrary one.
-/

namespace Wirerust.Dnp3

open Lib Wirerust.Flow Wirerust.Analyzer

/-! ## Headers and function codes -/

structure Dnp3DlHeader where
  start1 : UInt8
  start2 : UInt8
  length : UInt8
  control : UInt8
  destination : UInt16
  source : UInt16
  deriving DecidableEq, Repr

def parseDnp3DlHeader : List UInt8 → Option Dnp3DlHeader
  | b0 :: b1 :: b2 :: b3 :: b4 :: b5 :: b6 :: b7 :: _ :: _ :: _ =>
    some ⟨b0, b1, b2, b3, leU16 b4 b5, leU16 b6 b7⟩
  | _ => none

def isValidDnp3FrameHeader (h : Dnp3DlHeader) : Bool :=
  h.start1 == 0x05 && h.start2 == 0x64 && h.length ≥ 5

inductive Dnp3FcClass
  | read
  | write
  | control
  | restart
  | management
  | response
  | unknown
  deriving DecidableEq, Repr

def classifyDnp3Fc (fc : UInt8) : Dnp3FcClass :=
  if fc = 0x01 then .read
  else if fc = 0x02 then .write
  else if 0x03 ≤ fc ∧ fc ≤ 0x06 then .control
  else if fc = 0x00 ∨ (0x07 ≤ fc ∧ fc ≤ 0x0c) ∨ (0x0f ≤ fc ∧ fc ≤ 0x1a) then .management
  else if fc = 0x0d ∨ fc = 0x0e then .restart
  else if 0x81 ≤ fc ∧ fc ≤ 0x83 then .response
  else .unknown

/-- The header, the user data and two bytes for every block of at most sixteen of them. -/
def computeDnp3FrameLen (length : UInt8) : Option Nat :=
  if length < 5 then none
  else
    let u := length.toNat - 5
    let blocks := (u + 15) / 16
    some (5 + length.toNat + 2 * blocks)

def transportIsFir (transportOctet : UInt8) : Bool := transportOctet &&& 0x40 != 0

def hasUserData (control : UInt8) : Bool :=
  let linkFc := control &&& 0x0f
  linkFc == 0x03 || linkFc == 0x04

def isBroadcastDestination (dest : UInt16) : Bool := dest ≥ 0xfffd

def isMasterFrame (control : UInt8) : Bool := control &&& 0x80 != 0

def maxPendingRequests : Nat := 256

def maxDnp3FrameLen : Nat := 292

def maxMasterAddrs : Nat := 64

def malformedAnomalyThreshold : Nat := 3

def correlationWindowSecs : UInt32 := 300

def blockCmdTimeoutSecs : UInt32 := 10

def blockCmdThreshold : Nat := 3

def t0827Threshold : Nat := 3

def detectionWindowSecs : UInt32 := 60

/-! ## State -/

/-- A pending request is known by its destination and application sequence. -/
abbrev ReqKey := UInt16 ×ₗ UInt8

structure Dnp3FlowState where
  carryC2s : List UInt8 := []
  carryS2c : List UInt8 := []
  isNonDnp3 : Bool := false
  fcCounts : SortedMap UInt8 Nat := .empty
  frameCount : Nat := 0
  parseErrors : Nat := 0
  directOperateCount : Nat := 0
  windowStartTs : UInt32 := 0
  directOperateEmitted : Bool := false
  masterAddrsSeen : List UInt16 := []
  restartEventCount : Nat := 0
  blockEventCount : Nat := 0
  pendingRequests : SortedMap ReqKey UInt32 := .empty
  blockFindingEmittedThisWindow : Bool := false
  lossOfControlEmitted : Bool := false
  correlationWindowStartTs : UInt32 := 0
  correlationWindowSeeded : Bool := false
  malformedInWindow : Nat := 0
  malformedAnomalyEmitted : Bool := false
  enableUnsolicitedSeen : Bool := false
  responseSeen : Bool := false
  unsolicitedAnomalyEmitted : Bool := false
  unexpectedSourceEmitted : Bool := false

namespace Dnp3FlowState

/-- `active_carry!` -/
def carry (flow : Dnp3FlowState) : Direction → List UInt8
  | .clientToServer => flow.carryC2s
  | .serverToClient => flow.carryS2c

def setCarry (flow : Dnp3FlowState) (dir : Direction) (bytes : List UInt8) : Dnp3FlowState :=
  match dir with
  | .clientToServer => { flow with carryC2s := bytes }
  | .serverToClient => { flow with carryS2c := bytes }

end Dnp3FlowState

structure Dnp3Analyzer where
  flows : SortedMap FlowKey Dnp3FlowState
  directOperateThreshold : UInt32
  fnCodeCounts : SortedMap UInt8 Nat
  findings : Capped Finding
  masterAddrsDropped : Nat
  pendingRequestsEvicted : Nat
  closedFlowsCount : Nat
  totalFramesClosed : Nat
  parseErrorsClosed : Nat
  closedFlowDirectOperates : List (FlowKey × Nat)
  evictions : Nat

def Dnp3Analyzer.new (directOperateThreshold : UInt32) : Dnp3Analyzer where
  flows := .empty
  directOperateThreshold := directOperateThreshold
  fnCodeCounts := .empty
  findings := ⟨[], 0⟩
  masterAddrsDropped := 0
  pendingRequestsEvicted := 0
  closedFlowsCount := 0
  totalFramesClosed := 0
  parseErrorsClosed := 0
  closedFlowDirectOperates := []
  evictions := 0

/-- The order in which the `n`-th eviction sees the pending requests. -/
structure PendingOrder where
  visit : Nat → List (ReqKey × UInt32) → List (ReqKey × UInt32)
  perm : ∀ n l, (visit n l).Perm l

/-! ## Findings -/

/-- What all detectors are told about the call. -/
structure Delivery where
  flowKey : FlowKey
  direction : Direction
  ts : UInt32

/-- The outstation is the endpoint with port 20000; the upper one if neither has it. -/
def Delivery.masterIp (c : Delivery) : IpAddr :=
  let (clientIp, serverIp) :=
    if c.flowKey.lowerPort = 20000 then (c.flowKey.upperIp, c.flowKey.lowerIp)
    else (c.flowKey.lowerIp, c.flowKey.upperIp)
  match c.direction with
  | .clientToServer => clientIp
  | .serverToClient => serverIp

def Delivery.finding (c : Delivery) (category : ThreatCategory) (verdict : Verdict)
    (confidence : Confidence) (summary : String) (evidence : List String) (technique : String) :
    Finding where
  category := category
  verdict := verdict
  confidence := confidence
  summary := summary
  evidence := evidence
  mitreTechniques := [technique]
  sourceIp := some c.masterIp
  timestamp := some c.ts
  direction := none

/-- A finding of the analyzer that no latch belongs to. -/
def emit (s : Dnp3Analyzer) (finding : Finding) : Dnp3Analyzer :=
  { s with findings := pushFinding s.findings finding }

/-- The application part of a frame. -/
structure Request where
  appFc : UInt8
  dest : UInt16
  src : UInt16

def Request.addresses (r : Request) : String :=
  "FC=" ++ hexByte r.appFc ++ " dest=" ++ hexWord r.dest ++ " src=" ++ hexWord r.src

def Request.route (r : Request) : String :=
  "from src=" ++ hexWord r.src ++ " to dest=" ++ hexWord r.dest

/-! ## The correlation window -/

def maybeExpireCorrelationWindow (flow : Dnp3FlowState) (nowTs : UInt32) : Dnp3FlowState :=
  if !flow.correlationWindowSeeded then
    { flow with correlationWindowStartTs := nowTs, correlationWindowSeeded := true }
  else if saturatingSub nowTs flow.correlationWindowStartTs > correlationWindowSecs then
    { flow with
      restartEventCount := 0
      blockEventCount := 0
      blockFindingEmittedThisWindow := false
      lossOfControlEmitted := false
      malformedInWindow := 0
      malformedAnomalyEmitted := false
      correlationWindowStartTs := nowTs }
  else flow

def maybeEmitT0827 (c : Delivery) (dest : UInt16) (s : Dnp3Analyzer) (flow : Dnp3FlowState) :
    Checked (Dnp3Analyzer × Dnp3FlowState) := do
  let combined ← checkedAdd 64 flow.restartEventCount flow.blockEventCount
  if combined ≥ t0827Threshold && !flow.lossOfControlEmitted then
    let elapsed := saturatingSub c.ts flow.correlationWindowStartTs
    let restartCount := toString flow.restartEventCount
    let blockCount := toString flow.blockEventCount
    .ok (emit s (c.finding .impact .likely .medium
      ("DNP3 sustained loss-of-control pattern: " ++ restartCount ++ " restart events + " ++
        blockCount ++ " blocked commands within " ++ toString elapsed ++ "s on flow (dest=" ++
        hexWord dest ++ ")")
      ["restart_event_count=" ++ restartCount ++ " block_event_count=" ++ blockCount ++
        " threshold=" ++ toString t0827Threshold] "T0827"),
      { flow with lossOfControlEmitted := true })
  else .ok (s, flow)

/-- One timed-out request: the least destination so far, and the flow without it. -/
def timeOutRequest (acc : Option UInt16 × Dnp3FlowState) (key : ReqKey) :
    Option UInt16 × Dnp3FlowState :=
  let dest := (ofLex key).1
  let minDest := match acc.1 with
    | none => dest
    | some least => if dest < least then dest else least
  (some minDest, { acc.2 with
    pendingRequests := acc.2.pendingRequests.erase key
    blockEventCount := bump64 acc.2.blockEventCount })

/-- The order of the timed-out requests makes no difference, so it is that of the keys. -/
def scanBlockTimeouts (c : Delivery) (s : Dnp3Analyzer) (flow : Dnp3FlowState) :
    Checked (Dnp3Analyzer × Dnp3FlowState) :=
  let timedOut := (flow.pendingRequests.entries.filter fun e =>
    saturatingSub c.ts e.2 > blockCmdTimeoutSecs).map Prod.fst
  let (minTimedoutDest, flow) := timedOut.foldl timeOutRequest (none, flow)
  let (s, flow) :=
    if flow.blockEventCount ≥ blockCmdThreshold && !flow.blockFindingEmittedThisWindow then
      let count := toString flow.blockEventCount
      (emit s (c.finding .execution .possible .low
        ("DNP3 inferred blocked command: " ++ count ++ " requests without response within " ++
          toString blockCmdTimeoutSecs ++ "s (dest=" ++ hexWord (minTimedoutDest.getD 0) ++ ")")
        ["block_event_count=" ++ count ++ " in correlation window; threshold=" ++
          toString blockCmdThreshold] "T1691.001"),
        { flow with blockFindingEmittedThisWindow := true })
    else (s, flow)
  match minTimedoutDest with
  | some dest => maybeEmitT0827 c dest s flow
  | none => .ok (s, flow)

def countMalformed (flow : Dnp3FlowState) : Dnp3FlowState :=
  { flow with
    parseErrors := bump64 flow.parseErrors
    malformedInWindow := bump64 flow.malformedInWindow }

def malformedFinding (c : Delivery) (flow : Dnp3FlowState) : Finding :=
  let elapsed := saturatingSub c.ts flow.correlationWindowStartTs
  let count := toString flow.malformedInWindow
  c.finding .anomaly .possible .low
    ("DNP3 structural anomaly: " ++ count ++ " malformed frames in " ++ toString elapsed ++
      "s window (flow " ++ c.flowKey.lowerIp.display ++ "→" ++ c.flowKey.upperIp.display ++
      ") — possible Crain-Sistrunk crash-probe")
    ["malformed_in_window=" ++ count ++ " in correlation window; threshold=" ++
      toString malformedAnomalyThreshold] "T0814"

def checkMalformedAnomaly (c : Delivery) (s : Dnp3Analyzer) (flow : Dnp3FlowState) :
    Dnp3Analyzer × Dnp3FlowState :=
  let inWindow := saturatingSub c.ts flow.correlationWindowStartTs < correlationWindowSecs
  if flow.malformedInWindow ≥ malformedAnomalyThreshold && !flow.malformedAnomalyEmitted &&
      inWindow then
    (emit s (malformedFinding c flow), { flow with malformedAnomalyEmitted := true })
  else (s, flow)

/-! ## Detectors -/

/-- The window restarts before the command is counted, so the first command of a new window is
never the one that crosses the threshold. -/
def detectControlClassBurstSplit (c : Delivery) (r : Request) (s : Dnp3Analyzer)
    (flow : Dnp3FlowState) : Dnp3Analyzer × Dnp3FlowState :=
  if flow.directOperateCount > 0 &&
      saturatingSub c.ts flow.windowStartTs > detectionWindowSecs then
    (s, { flow with directOperateCount := 1, windowStartTs := c.ts, directOperateEmitted := false })
  else
    let flow := { flow with directOperateCount := bump32 flow.directOperateCount }
    let flow := if flow.directOperateCount = 1 then { flow with windowStartTs := c.ts } else flow
    let elapsed := saturatingSub c.ts flow.windowStartTs
    if flow.directOperateCount > s.directOperateThreshold.toNat && !flow.directOperateEmitted &&
        elapsed ≤ detectionWindowSecs then
      (emit s (c.finding .execution .likely .medium
        ("DNP3 unauthorized control command burst: " ++ toString flow.directOperateCount ++
          " control FCs in " ++ toString elapsed ++ "s window (threshold " ++
          toString s.directOperateThreshold ++ ")")
        [r.addresses] "T1692.001"),
        { flow with directOperateEmitted := true })
    else (s, flow)

def detectRestartSplit (c : Delivery) (r : Request) (s : Dnp3Analyzer) (flow : Dnp3FlowState) :
    Dnp3Analyzer × Dnp3FlowState :=
  let name :=
    if r.appFc = 0x0d then "COLD_RESTART" else if r.appFc = 0x0e then "WARM_RESTART" else "RESTART"
  (emit s (c.finding .execution .likely .high
    ("DNP3 restart command observed: FC " ++ hexByte r.appFc ++ " (" ++ name ++ ") " ++ r.route)
    [r.addresses] "T0814"),
    { flow with restartEventCount := bump64 flow.restartEventCount })

def detectWriteSplit (c : Delivery) (r : Request) (s : Dnp3Analyzer) : Dnp3Analyzer :=
  emit s (c.finding .execution .likely .medium
    ("DNP3 WRITE command observed: parameter modification " ++ r.route)
    ["FC=0x02 (WRITE) dest=" ++ hexWord r.dest ++ " src=" ++ hexWord r.src] "T0836")

def detectBroadcastAnomaly (c : Delivery) (r : Request) (s : Dnp3Analyzer) : Dnp3Analyzer :=
  emit s (c.finding .suspicious .possible .medium
    ("DNP3 broadcast control command: Control FC " ++ hexByte r.appFc ++
      " sent to broadcast destination " ++ hexWord r.dest)
    ["FC=" ++ hexByte r.appFc ++ " dest=" ++ hexWord r.dest ++ " (broadcast) src=" ++
      hexWord r.src] "T1692.001")

def detectUnexpectedSourceSplit (c : Delivery) (r : Request) (s : Dnp3Analyzer)
    (flow : Dnp3FlowState) : Dnp3Analyzer × Dnp3FlowState :=
  if flow.unexpectedSourceEmitted then (s, flow)
  else
    let masterSet := "[" ++
      ", ".intercalate ((flow.masterAddrsSeen.filter (· ≠ r.src)).map hexWord) ++ "]"
    (emit s (c.finding .execution .likely .high
      ("DNP3 unauthorized control command from unexpected source: src=" ++ hexWord r.src ++
        " is not in expected master set " ++ masterSet ++ " on dest=" ++ hexWord r.dest)
      [r.addresses, "expected_masters=" ++ masterSet] "T1692.001"),
      { flow with unexpectedSourceEmitted := true })

def detectUnsolicitedAnomaly (c : Delivery) (r : Request) (appCtrl : UInt8) (s : Dnp3Analyzer)
    (flow : Dnp3FlowState) : Dnp3Analyzer × Dnp3FlowState :=
  if r.appFc = 0x81 then (s, { flow with responseSeen := true })
  else if r.appFc = 0x82 && !flow.enableUnsolicitedSeen && !flow.responseSeen &&
      !flow.unsolicitedAnomalyEmitted then
    let unsBit := appCtrl &&& 0x10 != 0
    (emit s (c.finding .suspicious .possible .low
      ("DNP3 unexpected unsolicited response: UNSOLICITED_RESPONSE from src=" ++ hexWord r.src ++
        " with no prior ENABLE_UNSOLICITED or solicited exchange on this flow")
      ["FC=0x82 src=" ++ hexWord r.src ++ " dest=" ++ hexWord r.dest ++ " UNS_bit=" ++
        toString unsBit] "T0814"),
      { flow with unsolicitedAnomalyEmitted := true })
  else (s, flow)

def detectUnsolicitedControl (c : Delivery) (r : Request) (s : Dnp3Analyzer)
    (flow : Dnp3FlowState) : Dnp3Analyzer × Dnp3FlowState :=
  if r.appFc = 0x15 then
    (emit s (c.finding .execution .likely .medium
      ("DNP3 DISABLE_UNSOLICITED observed: FC 0x15 " ++ r.route ++
        " — alarm suppression / event-blinding primitive")
      [r.addresses] "T0814"), flow)
  else if r.appFc = 0x14 then
    (emit s (c.finding .execution .possible .low
      ("DNP3 ENABLE_UNSOLICITED observed: FC 0x14 " ++ r.route ++
        " — unsolicited reporting control")
      [r.addresses] "T0814"), { flow with enableUnsolicitedSeen := true })
  else (s, flow)

/-- The first of the oldest entries. -/
def oldest : List (ReqKey × UInt32) → Option (ReqKey × UInt32)
  | [] => none
  | e :: es =>
    match oldest es with
    | none => some e
    | some m => if m.2 < e.2 then some m else some e

def evictOldest (entries : List (ReqKey × UInt32)) (pending : SortedMap ReqKey UInt32) :
    SortedMap ReqKey UInt32 :=
  match oldest entries with
  | some e => pending.erase e.1
  | none => pending

/-- Also whether another request had to go. -/
def insertPendingRequest (entries : List (ReqKey × UInt32)) (flow : Dnp3FlowState) (key : ReqKey)
    (requestTs : UInt32) : Dnp3FlowState × Bool :=
  if flow.pendingRequests.size ≥ maxPendingRequests &&
      (flow.pendingRequests.get? key).isNone then
    let pending := evictOldest entries flow.pendingRequests
    ({ flow with pendingRequests := pending.insert key requestTs }, true)
  else ({ flow with pendingRequests := flow.pendingRequests.insert key requestTs }, false)

/-! ## The frames -/

/-- `windows(2)` with the sync word. -/
def findSync : List UInt8 → Option Nat
  | a :: b :: rest =>
    if a = 0x05 ∧ b = 0x64 then some 0 else (findSync (b :: rest)).map (· + 1)
  | _ => none

def isSync : List UInt8 → Bool
  | 0x05 :: 0x64 :: _ => true
  | _ => false

/-- The carry from the next sync word on, which is not among the first `skip` bytes; all of it goes
if there is none. -/
def resync (skip : Nat) (carry : List UInt8) : List UInt8 :=
  match findSync (carry.drop skip) with
  | some i => carry.drop (skip + i)
  | none => []

def trackMaster (h : Dnp3DlHeader) (s : Dnp3Analyzer) (flow : Dnp3FlowState) :
    Dnp3Analyzer × Dnp3FlowState :=
  if isMasterFrame h.control && h.source ∉ flow.masterAddrsSeen then
    if flow.masterAddrsSeen.length < maxMasterAddrs then
      (s, { flow with masterAddrsSeen := flow.masterAddrsSeen ++ [h.source] })
    else ({ s with masterAddrsDropped := bump64 s.masterAddrsDropped }, flow)
  else (s, flow)

def countEviction (s : Dnp3Analyzer) (evicted : Bool) : Dnp3Analyzer :=
  if evicted then
    { s with
      pendingRequestsEvicted := bump64 s.pendingRequestsEvicted
      evictions := s.evictions + 1 }
  else s

/-- A command that asks for a response is pending until there is one. -/
def registerRequest (ord : PendingOrder) (c : Delivery) (r : Request) (appCtrl : UInt8)
    (s : Dnp3Analyzer) (flow : Dnp3FlowState) : Dnp3Analyzer × Dnp3FlowState :=
  if r.appFc ≠ 0x06 then
    let appSeq := appCtrl &&& 0x0f
    let entries := ord.visit s.evictions flow.pendingRequests.entries
    let (flow, evicted) := insertPendingRequest entries flow (toLex (r.dest, appSeq)) c.ts
    (countEviction s evicted, flow)
  else (s, flow)

/-- A control command; `appCtrl` is the application control octet, and `unexpected` says that the
master was not known while others were. -/
def processControl (ord : PendingOrder) (c : Delivery) (r : Request) (appCtrl : UInt8)
    (unexpected : Bool) (s : Dnp3Analyzer) (flow : Dnp3FlowState) :
    Dnp3Analyzer × Dnp3FlowState :=
  let s := if isBroadcastDestination r.dest then detectBroadcastAnomaly c r s else s
  let (s, flow) := if unexpected then detectUnexpectedSourceSplit c r s flow else (s, flow)
  let (s, flow) := registerRequest ord c r appCtrl s flow
  detectControlClassBurstSplit c r s flow

def processClass (ord : PendingOrder) (c : Delivery) (r : Request) (appCtrl : UInt8)
    (unexpected : Bool) (s : Dnp3Analyzer) (flow : Dnp3FlowState) :
    Checked (Dnp3Analyzer × Dnp3FlowState) :=
  match classifyDnp3Fc r.appFc with
  | .control => .ok (processControl ord c r appCtrl unexpected s flow)
  | .restart =>
    let (s, flow) := detectRestartSplit c r s flow
    maybeEmitT0827 c r.dest s flow
  | .write => .ok (detectWriteSplit c r s, flow)
  | .response =>
    let (s, flow) := detectUnsolicitedAnomaly c r appCtrl s flow
    if r.appFc = 0x81 then
      let appSeq := appCtrl &&& 0x0f
      .ok (s, { flow with
        pendingRequests := flow.pendingRequests.erase (toLex (r.src, appSeq)) })
    else .ok (s, flow)
  | _ => .ok (s, flow)

/-- A frame that carries the start of an application message. -/
def processApplication (ord : PendingOrder) (c : Delivery) (r : Request) (appCtrl : UInt8)
    (unexpected : Bool) (s : Dnp3Analyzer) (flow : Dnp3FlowState) :
    Checked (Dnp3Analyzer × Dnp3FlowState) := do
  let (fcCounts, _) ← countEntry 64 flow.fcCounts r.appFc
  let (fnCodeCounts, _) ← countEntry 64 s.fnCodeCounts r.appFc
  let flow := { flow with fcCounts := fcCounts }
  let s := { s with fnCodeCounts := fnCodeCounts }
  let (s, flow) :=
    if r.appFc = 0x14 ∨ r.appFc = 0x15 then detectUnsolicitedControl c r s flow else (s, flow)
  processClass ord c r appCtrl unexpected s flow

/-- The application part, if the frame is a first fragment with user data. A frame of 13 bytes or
more has all the bytes that are looked at. -/
def applicationOf (frame : List UInt8) (h : Dnp3DlHeader) : Option (Request × UInt8) :=
  if frame.length ≥ 13 && hasUserData h.control && transportIsFir (frame.getD 10 0) then
    some (⟨frame.getD 12 0, h.destination, h.source⟩, frame.getD 11 0)
  else none

/-- A complete frame with a valid header, still at the front of the carry. -/
def processFrame (ord : PendingOrder) (c : Delivery) (h : Dnp3DlHeader) (frame : List UInt8)
    (s : Dnp3Analyzer) (flow : Dnp3FlowState) : Checked (Dnp3Analyzer × Dnp3FlowState) :=
  let flow := { flow with frameCount := bump64 flow.frameCount }
  let srcWasKnown := decide (h.source ∈ flow.masterAddrsSeen)
  let expectedSetEstablished := !flow.masterAddrsSeen.isEmpty
  let (s, flow) := trackMaster h s flow
  match applicationOf frame h with
  | some (r, appCtrl) =>
    processApplication ord c r appCtrl
      (isMasterFrame h.control && expectedSetEstablished && !srcWasKnown) s flow
  | none => .ok (s, flow)

/-! ## `on_data` -/

/-- What the loop does before it stops on fewer than ten bytes. -/
def settleShort (c : Delivery) (didProcess : Bool) (s : Dnp3Analyzer) (flow : Dnp3FlowState) :
    Dnp3Analyzer × Dnp3FlowState :=
  let carry := flow.carry c.direction
  if carry.length ≥ 2 then
    if !isSync carry then
      checkMalformedAnomaly c s ((countMalformed flow).setCarry c.direction (resync 1 carry))
    else if didProcess && carry.length ≥ 3 && (computeDnp3FrameLen (carry.getD 2 0)).isNone then
      checkMalformedAnomaly c s ((countMalformed flow).setCarry c.direction (resync 1 carry))
    else (s, flow)
  else (s, flow)

/-- One turn of the loop; the flag says whether there is another one. -/
def turn (ord : PendingOrder) (c : Delivery) (didProcess : Bool) (s : Dnp3Analyzer)
    (flow : Dnp3FlowState) : Checked (Bool × Dnp3Analyzer × Dnp3FlowState) :=
  let carry := flow.carry c.direction
  if carry.length < 10 then
    .ok (false, settleShort c didProcess s flow)
  else if !isSync carry then
    let (s, flow) := checkMalformedAnomaly c s (countMalformed flow)
    .ok (true, s, flow.setCarry c.direction (resync 1 carry))
  else
    match computeDnp3FrameLen (carry.getD 2 0) with
    | none =>
      .ok (true, checkMalformedAnomaly c s
        ((countMalformed flow).setCarry c.direction (resync 1 carry)))
    | some frameLen =>
      if carry.length < frameLen then
        .ok (false, s, flow)
      else
        match (parseDnp3DlHeader (carry.take frameLen)).filter isValidDnp3FrameHeader with
        | none =>
          .ok (true, checkMalformedAnomaly c s
            ((countMalformed flow).setCarry c.direction (carry.drop frameLen)))
        | some h => do
          let (s, flow) ← processFrame ord c h (carry.take frameLen) s flow
          .ok (true, s, flow.setCarry c.direction (carry.drop frameLen))

/-- The loop, for at most so many turns. -/
def walk (ord : PendingOrder) (c : Delivery) :
    Nat → Bool → Dnp3Analyzer → Dnp3FlowState → Checked (Dnp3Analyzer × Dnp3FlowState)
  | 0, _, s, flow => .ok (s, flow)
  | turns + 1, didProcess, s, flow => do
    let (again, s, flow) ← turn ord c didProcess s flow
    if again then walk ord c turns true s flow else .ok (s, flow)

/-- The data goes to the carry, up to the length of the longest frame. -/
def accumulate (c : Delivery) (data : List UInt8) (s : Dnp3Analyzer) (flow : Dnp3FlowState) :
    Checked (Dnp3Analyzer × Dnp3FlowState) := do
  let carry := flow.carry c.direction
  let remainingCapacity ← checkedSub maxDnp3FrameLen carry.length
  if data.length > remainingCapacity then
    let capped := carry ++ data.take remainingCapacity
    .ok (checkMalformedAnomaly c s ((countMalformed flow).setCarry c.direction (resync 0 capped)))
  else
    .ok (s, flow.setCarry c.direction (carry ++ data))

/-- The first bytes of a flow have to be the sync word. -/
def desynced (flow : Dnp3FlowState) (data : List UInt8) : Bool :=
  flow.frameCount = 0 && flow.carryC2s.isEmpty && flow.carryS2c.isEmpty && data.length ≥ 2 &&
    !isSync data

def onFlowData (ord : PendingOrder) (c : Delivery) (data : List UInt8) (s : Dnp3Analyzer)
    (flow : Dnp3FlowState) : Checked (Dnp3Analyzer × Dnp3FlowState) :=
  if flow.isNonDnp3 then .ok (s, flow)
  else if desynced flow data then .ok (s, { flow with isNonDnp3 := true })
  else do
    let flow := maybeExpireCorrelationWindow flow c.ts
    let (s, flow) ← scanBlockTimeouts c s flow
    let (s, flow) ← accumulate c data s flow
    -- Every turn but the last takes a byte off the carry.
    walk ord c ((flow.carry c.direction).length + 1) false s flow

def onData (ord : PendingOrder) (s : Dnp3Analyzer) (flowKey : FlowKey) (data : List UInt8)
    (ts : UInt32) (direction : Direction) : Checked Dnp3Analyzer := do
  let flow := (s.flows.get? flowKey).getD {}
  let (s, flow) ← onFlowData ord ⟨flowKey, direction, ts⟩ data s flow
  .ok { s with flows := s.flows.insert flowKey flow }

def onFlowClose (s : Dnp3Analyzer) (flowKey : FlowKey) : Dnp3Analyzer :=
  match s.flows.get? flowKey with
  | some flow =>
    { s with
      flows := s.flows.erase flowKey
      totalFramesClosed := min (s.totalFramesClosed + flow.frameCount) (2 ^ 64 - 1)
      parseErrorsClosed := min (s.parseErrorsClosed + flow.parseErrors) (2 ^ 64 - 1)
      closedFlowDirectOperates := s.closedFlowDirectOperates ++ [(flowKey, flow.directOperateCount)]
      closedFlowsCount := bump64 s.closedFlowsCount }
  | none => s

end Wirerust.Dnp3
