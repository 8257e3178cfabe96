import Mathlib.Data.String.Basic
import Wirerust.Text
import Wirerust.Analyzer.Common

/-!
The HTTP analyzer (`analyzer/http.rs`).

Requests and responses are read by the crate `httparse`, which is a parameter, and so is
`str::to_lowercase`, which goes by the tables of Unicode. Of the parser it is known that a message
has at least one byte and no more than there are.

The two loops that parse what has been buffered differ only in the parser, in what they record and
in a text; they are `tryParse`, which gets as many turns as there are bytes, and each turn takes at
least one of them. Outside the loops a direction is one `Side` of the flow.
-/

namespace Wirerust.Http

open Lib Wirerust.Flow Wirerust.Analyzer

def maxHeaderBuf : Nat := 65536

def maxUris : Nat := 10000

def maxMapEntries : Nat := 50000

def poisonThreshold : Nat := 3

/-! ## httparse -/

/-- `httparse::Error`. -/
inductive HttparseError
  | headerName
  | headerValue
  | newLine
  | status
  | token
  | tooManyHeaders
  | version
  deriving DecidableEq, Repr

/-- `httparse::Request` after a complete parse. -/
structure RawRequest where
  method : Option String
  path : Option String
  version : Option UInt8
  headers : List (String × List UInt8)

/-- `httparse::Response` after a complete parse. -/
structure RawResponse where
  code : Option UInt16

/-- A parse result: `none` is `Partial`, and `Complete` comes with its length. -/
abbrev Parsed (α : Type) := Except HttparseError (Option (Nat × α))

/-- The two parsers, with room for 96 headers. -/
structure Httparse where
  request : List UInt8 → Parsed RawRequest
  response : List UInt8 → Parsed RawResponse
  request_bounds : ∀ {buf n raw}, request buf = .ok (some (n, raw)) → 1 ≤ n ∧ n ≤ buf.length
  response_bounds : ∀ {buf n raw}, response buf = .ok (some (n, raw)) → 1 ≤ n ∧ n ≤ buf.length

structure ParsedRequest where
  method : String
  uri : String
  version : UInt8
  host : Option String
  userAgent : Option String
  deriving DecidableEq, Repr

def findHeader (headers : List (String × List UInt8)) (name : String) : Option String :=
  (headers.find? fun h => Text.eqIgnoreAsciiCase h.1 name).map fun h =>
    Text.trim (Text.fromUtf8Lossy h.2)

def RawRequest.parsed (raw : RawRequest) : ParsedRequest where
  method := raw.method.getD ""
  uri := raw.path.getD ""
  version := raw.version.getD 1
  host := findHeader raw.headers "host"
  userAgent := findHeader raw.headers "user-agent"

def mapParsed {α β : Type} (f : α → β) (result : Parsed α) : Parsed β :=
  match result with
  | .ok (some (n, raw)) => .ok (some (n, f raw))
  | .ok none => .ok none
  | .error e => .error e

def parseOneRequest (lib : Httparse) (buf : List UInt8) : Parsed ParsedRequest :=
  mapParsed RawRequest.parsed (lib.request buf)

/-- The status code of the response. -/
def parseOneResponse (lib : Httparse) (buf : List UInt8) : Parsed UInt16 :=
  mapParsed (fun raw => raw.code.getD 0) (lib.response buf)

/-! ## State -/

/-- `request_buf`, `request_poisoned` and `request_error_count`, or those of the responses. -/
structure Side where
  buf : List UInt8 := []
  poisoned : Bool := false
  errorCount : Nat := 0
  deriving DecidableEq

structure HttpFlowState where
  request : Side := {}
  response : Side := {}
  countedAsNonHttp : Bool := false
  lastTs : UInt32 := 0
  deriving DecidableEq

namespace HttpFlowState

def side (flow : HttpFlowState) : Direction → Side
  | .clientToServer => flow.request
  | .serverToClient => flow.response

def setSide (flow : HttpFlowState) (dir : Direction) (side : Side) : HttpFlowState :=
  match dir with
  | .clientToServer => { flow with request := side }
  | .serverToClient => { flow with response := side }

end HttpFlowState

structure HttpAnalyzer where
  flows : SortedMap FlowKey HttpFlowState
  methods : SortedMap String Nat
  statusCodes : SortedMap UInt16 Nat
  hosts : SortedMap String Nat
  userAgents : SortedMap String Nat
  uris : List String
  transactions : Nat
  findings : List Finding
  parseErrors : Nat
  nonHttpFlows : Nat
  poisonedBytesSkipped : Nat
  droppedMapEntries : Nat

def HttpAnalyzer.new : HttpAnalyzer where
  flows := .empty
  methods := .empty
  statusCodes := .empty
  hosts := .empty
  userAgents := .empty
  uris := []
  transactions := 0
  findings := []
  parseErrors := 0
  nonHttpFlows := 0
  poisonedBytesSkipped := 0
  droppedMapEntries := 0

/-! ## Detections -/

def truncateUri (uri : String) (maxLen : Nat) : String :=
  if uri.utf8ByteSize ≤ maxLen then uri else Text.floorBoundary uri maxLen

def finding (category : ThreatCategory) (verdict : Verdict) (confidence : Confidence)
    (summary evidence : String) (mitreTechniques : List String) (lastTs : UInt32)
    (direction : Direction) : Finding where
  category := category
  verdict := verdict
  confidence := confidence
  summary := summary
  evidence := [evidence]
  mitreTechniques := mitreTechniques
  sourceIp := none
  timestamp := some lastTs
  direction := some direction

def traversalPatterns : List String := ["../", "..%2f", "..%252f", "....//"]

def shellPatterns : List String :=
  ["/shell.php", "/shell.asp", "/shell.jsp", "/cmd.php", "/cmd.asp", "/cmd.jsp", "/c99.php",
    "/r57.php", "/webshell", "/backdoor"]

def adminPatterns : List String := ["/wp-admin", "/admin", "/phpmyadmin", "/manager"]

def unusualMethods : List String := ["CONNECT", "TRACE", "DELETE", "OPTIONS"]

def hostAnomalySummary (parsed : ParsedRequest) : Option String :=
  if parsed.version = 1 then
    match parsed.host with
    | none => some "HTTP/1.1 request without Host header"
    | some host => if host = "" then some "HTTP/1.1 request with empty Host header" else none
  else none

/-- The findings of `check_request_detections`, in order. -/
def requestDetections (parsed : ParsedRequest) (lastTs : UInt32) : List Finding :=
  let uriLower := Text.toLowercase parsed.uri
  let raise := fun category verdict confidence summary evidence techniques =>
    finding category verdict confidence summary evidence techniques lastTs .clientToServer
  let line := parsed.method ++ " " ++ parsed.uri
  let short := truncateUri parsed.uri 120
  (if traversalPatterns.any (Text.contains uriLower) then
    [raise .reconnaissance .likely .high ("Path traversal in URI: " ++ short)
      ("URI: " ++ parsed.uri) ["T1083"]] else []) ++
  (if shellPatterns.any (Text.contains uriLower) then
    [raise .execution .likely .medium ("Possible web shell access: " ++ short)
      ("URI: " ++ parsed.uri) ["T1505.003"]] else []) ++
  (if adminPatterns.any (Text.contains uriLower) then
    [raise .reconnaissance .inconclusive .low ("Admin panel access: " ++ short)
      ("URI: " ++ parsed.uri) ["T1046"]] else []) ++
  (if unusualMethods.contains parsed.method then
    [raise .reconnaissance .inconclusive .medium ("Unusual HTTP method: " ++ parsed.method)
      line []] else []) ++
  (match hostAnomalySummary parsed with
    | some summary => [raise .anomaly .inconclusive .medium summary line []]
    | none => []) ++
  (if parsed.uri.utf8ByteSize > 2048 then
    [raise .execution .likely .medium
      ("Abnormally long URI (" ++ toString parsed.uri.utf8ByteSize ++ " chars)")
      ("URI prefix: " ++ truncateUri parsed.uri 200) []] else []) ++
  (if parsed.userAgent = some "" then
    [raise .anomaly .inconclusive .low "Empty User-Agent header" line []] else [])

/-! ## What a message leaves -/

/-- A new key is refused when the map is full, and then counted. -/
def countMapEntry (counts : SortedMap String Nat) (dropped : Nat) (key : String) :
    Checked (SortedMap String Nat × Nat) :=
  if counts.size < maxMapEntries || (counts.get? key).isSome then do
    let (counts, _) ← countEntry 64 counts key
    .ok (counts, dropped)
  else .ok (counts, bump64 dropped)

def countOptional (counts : SortedMap String Nat) (dropped : Nat) (key : Option String) :
    Checked (SortedMap String Nat × Nat) :=
  match key with
  | some key => countMapEntry counts dropped key
  | none => .ok (counts, dropped)

def recordRequest (s : HttpAnalyzer) (lastTs : UInt32) (parsed : ParsedRequest) :
    Checked HttpAnalyzer := do
  let (methods, dropped) ← countMapEntry s.methods s.droppedMapEntries parsed.method
  let (hosts, dropped) ← countOptional s.hosts dropped parsed.host
  let (userAgents, dropped) ← countOptional s.userAgents dropped parsed.userAgent
  let uris := if s.uris.length < maxUris then s.uris ++ [parsed.uri] else s.uris
  .ok { s with
    methods := methods
    hosts := hosts
    userAgents := userAgents
    uris := uris
    droppedMapEntries := dropped
    findings := s.findings ++ requestDetections parsed lastTs }

def recordResponse (s : HttpAnalyzer) (_lastTs : UInt32) (statusCode : UInt16) :
    Checked HttpAnalyzer := do
  let (statusCodes, _) ← countEntry 64 s.statusCodes statusCode
  .ok { s with statusCodes := statusCodes, transactions := bump64 s.transactions }

/-! ## The parse loops -/

/-- What the two loops differ in. -/
structure Reader (α : Type) where
  direction : Direction
  parse : List UInt8 → Parsed α
  record : HttpAnalyzer → UInt32 → α → Checked HttpAnalyzer
  evidence : String

/-- `saturating_add(1)` on a `u8`. -/
def bump8 (n : Nat) : Nat := saturatingInc 8 n

/-- The third error in a row poisons the direction. -/
def noteError {α : Type} (r : Reader α) (s : HttpAnalyzer) (flow : HttpFlowState) :
    HttpAnalyzer × HttpFlowState :=
  let s := { s with parseErrors := bump64 s.parseErrors }
  let side := flow.side r.direction
  let side := { side with errorCount := bump8 side.errorCount }
  if side.errorCount ≥ poisonThreshold then
    let flow := flow.setSide r.direction { side with poisoned := true }
    if !flow.countedAsNonHttp then
      ({ s with nonHttpFlows := bump64 s.nonHttpFlows }, { flow with countedAsNonHttp := true })
    else (s, flow)
  else (s, flow.setSide r.direction side)

def raiseTooManyHeaders {α : Type} (r : Reader α) (e : HttparseError) (lastTs : UInt32)
    (s : HttpAnalyzer) : HttpAnalyzer :=
  if e = .tooManyHeaders then
    let raised := finding .anomaly .inconclusive .medium
      "Excessive HTTP headers exceeded parser limit (possible DoS or header-based attack)"
      r.evidence ["T1499.002"] lastTs r.direction
    { s with findings := s.findings ++ [raised] }
  else s

def tryParse {α : Type} (r : Reader α) :
    Nat → Bool → HttpAnalyzer → HttpFlowState → Checked (HttpAnalyzer × HttpFlowState)
  | 0, _, s, flow => .ok (s, flow)
  | turns + 1, hadSuccess, s, flow =>
    let side := flow.side r.direction
    if side.buf.isEmpty then .ok (s, flow)
    else
      match r.parse side.buf with
      | .ok (some (n, parsed)) => do
        let s ← r.record s flow.lastTs parsed
        let rest ← slice side.buf n side.buf.length
        tryParse r turns true s
          (flow.setSide r.direction { side with buf := rest, errorCount := 0 })
      | .ok none => .ok (s, flow)
      | .error e =>
        let (s, flow) :=
          if !hadSuccess then
            let (s, flow) := noteError r s flow
            (raiseTooManyHeaders r e flow.lastTs s, flow)
          else (s, flow)
        let side := flow.side r.direction
        .ok (s, flow.setSide r.direction { side with buf := [] })

def requestReader (lib : Httparse) : Reader ParsedRequest where
  direction := .clientToServer
  parse := parseOneRequest lib
  record := recordRequest
  evidence := "Direction: request"

def responseReader (lib : Httparse) : Reader UInt16 where
  direction := .serverToClient
  parse := parseOneResponse lib
  record := recordResponse
  evidence := "Direction: response"

def tryParseRequests (lib : Httparse) (s : HttpAnalyzer) (flow : HttpFlowState) :
    Checked (HttpAnalyzer × HttpFlowState) :=
  tryParse (requestReader lib) flow.request.buf.length false s flow

def tryParseResponses (lib : Httparse) (s : HttpAnalyzer) (flow : HttpFlowState) :
    Checked (HttpAnalyzer × HttpFlowState) :=
  tryParse (responseReader lib) flow.response.buf.length false s flow

/-! ## `on_data` -/

/-- As much of `data` as there is room for. -/
def Side.append (side : Side) (data : List UInt8) : Side :=
  let remaining := maxHeaderBuf - side.buf.length
  if remaining > 0 then { side with buf := side.buf ++ data.take (min data.length remaining) }
  else side

def tryParseSide (lib : Httparse) (dir : Direction) (s : HttpAnalyzer) (flow : HttpFlowState) :
    Checked (HttpAnalyzer × HttpFlowState) :=
  match dir with
  | .clientToServer => tryParseRequests lib s flow
  | .serverToClient => tryParseResponses lib s flow

def onData (lib : Httparse) (s : HttpAnalyzer) (flowKey : FlowKey) (dir : Direction)
    (data : List UInt8) (timestamp : UInt32) : Checked HttpAnalyzer := do
  let flow := { (s.flows.get? flowKey).getD {} with lastTs := timestamp }
  let side := flow.side dir
  if side.poisoned then
    let skipped ← checkedAdd 64 s.poisonedBytesSkipped data.length
    .ok { s with flows := s.flows.insert flowKey flow, poisonedBytesSkipped := skipped }
  else
    let (s, flow) ← tryParseSide lib dir s (flow.setSide dir (side.append data))
    .ok { s with flows := s.flows.insert flowKey flow }

def onFlowClose (s : HttpAnalyzer) (flowKey : FlowKey) : HttpAnalyzer :=
  { s with flows := s.flows.erase flowKey }

end Wirerust.Http
