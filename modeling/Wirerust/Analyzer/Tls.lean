import Mathlib.Data.String.Basic
import Wirerust.Text
import Wirerust.Analyzer.Common

/-!
The TLS analyzer (`analyzer/tls.rs`).

Handshake messages and their extensions are read by the crate `tls_parser`, which is a parameter
together with its table of cipher suites, MD5 and `str::to_uppercase`. What the parser is given is
kept in `handed`, which is not a field of the source.

The outer loop takes records off the front of a direction's buffer and the inner one messages off
the front of its carry; the cursor of the inner one is given by the bytes after it. Both get as
many turns as there are bytes, and each turn takes at least one of them.
-/

namespace Wirerust.Tls

open Lib Wirerust.Flow Wirerust.Analyzer

def maxBuf : Nat := 65536

def maxMapEntries : Nat := 50000

def maxRecordPayload : Nat := 18432

/-! ## tls_parser -/

/-- `TlsExtension`, as far as it is looked at. -/
inductive ExtensionKind
  | sni (names : List (UInt8 × List UInt8))
  | ellipticCurves (groups : List UInt16)
  | ecPointFormats (formats : List UInt8)
  | other

structure TlsExtension where
  /-- `TlsExtensionType::from`. -/
  typeId : UInt16
  kind : ExtensionKind

structure ClientHelloContents where
  version : UInt16
  ciphers : List UInt16
  ext : Option (List UInt8)

structure ServerHelloContents where
  version : UInt16
  cipher : UInt16
  ext : Option (List UInt8)

inductive HandshakeMessage
  | clientHello (contents : ClientHelloContents)
  | serverHello (contents : ServerHelloContents)
  | other

/-- Errors of the two parsers are `none`. -/
structure TlsParser where
  messageHandshake : List UInt8 → Option HandshakeMessage
  extensions : List UInt8 → Option (List TlsExtension)
  cipherSuiteName : UInt16 → Option String
  md5 : List UInt8 → List UInt8

/-! ## Fingerprints -/

def isGreaseU16 (val : UInt16) : Bool := val &&& 0x0f0f = 0x0a0a

def isWeakCipher (lib : TlsParser) (id : UInt16) : Bool :=
  match lib.cipherSuiteName id with
  | some name =>
    let n := Text.toUppercase name
    Text.contains n "NULL" || Text.contains n "ANON" || Text.contains n "EXPORT"
  | none => false

def isWeakServerCipher (lib : TlsParser) (id : UInt16) : Bool :=
  isWeakCipher lib id ||
    match lib.cipherSuiteName id with
    | some name => Text.contains (Text.toUppercase name) "RC4"
    | none => false

def cipherName (lib : TlsParser) (id : UInt16) : String :=
  match lib.cipherSuiteName id with
  | some name => name
  | none => "0x" ++ Text.hexLower 4 id.toNat

def bytesToHex (bytes : List UInt8) : String :=
  String.join (bytes.map fun b => Text.hexLower 2 b.toNat)

/-- Numbers without the GREASE values, in decimal, with dashes between. -/
def greaseFree (values : List UInt16) : String :=
  "-".intercalate ((values.filter fun v => !isGreaseU16 v).map toString)

def curves (exts : List TlsExtension) : List UInt16 :=
  exts.flatMap fun e =>
    match e.kind with
    | .ellipticCurves groups => groups
    | _ => []

def pointFormats (exts : List TlsExtension) : List UInt8 :=
  exts.flatMap fun e =>
    match e.kind with
    | .ecPointFormats formats => formats
    | _ => []

def ja3String (version : UInt16) (ciphers : List UInt16) (exts : List TlsExtension) : String :=
  ",".intercalate [toString version, greaseFree ciphers, greaseFree (exts.map TlsExtension.typeId),
    greaseFree (curves exts), "-".intercalate ((pointFormats exts).map toString)]

def md5Hex (lib : TlsParser) (s : String) : String := bytesToHex (lib.md5 s.toUTF8.toList)

/-- The hash and the string. -/
def computeJa3 (lib : TlsParser) (version : UInt16) (ciphers : List UInt16)
    (exts : List TlsExtension) : String × String :=
  let ja3Str := ja3String version ciphers exts
  (md5Hex lib ja3Str, ja3Str)

def computeJa3s (lib : TlsParser) (version cipher : UInt16) (exts : List TlsExtension) : String :=
  md5Hex lib (toString version ++ "," ++ toString cipher ++ "," ++
    greaseFree (exts.map TlsExtension.typeId))

/-! ## Host names -/

inductive SniValue
  | ascii (hostname : String)
  | asciiWithControl (hostname hex : String)
  | nonAsciiUtf8 (hostname hex : String)
  | nonUtf8 (lossy hex : String)
  deriving DecidableEq, Repr

def isControl (c : Char) : Bool := c.toNat < 0x20 || c.toNat = 0x7f

def containsC0OrDel (s : String) : Checked Bool := do
  assertThat (Text.isAscii s = true)
  .ok (s.toList.any isControl)

def sniValue (hostname : List UInt8) : Checked SniValue :=
  match Text.fromUtf8 hostname with
  | none => .ok (.nonUtf8 (Text.fromUtf8Lossy hostname) (bytesToHex hostname))
  | some s =>
    if Text.isAscii s then do
      let control ← containsC0OrDel s
      .ok (if control then .asciiWithControl s (bytesToHex hostname) else .ascii s)
    else .ok (.nonAsciiUtf8 s (bytesToHex hostname))

/-- The first name of the first extension that has one. -/
def firstHostname : List TlsExtension → Option (List UInt8)
  | [] => none
  | e :: exts =>
    match e.kind with
    | .sni ((_, hostname) :: _) => some hostname
    | _ => firstHostname exts

def extractSni (exts : List TlsExtension) : Checked (Option SniValue) :=
  match firstHostname exts with
  | none => .ok none
  | some hostname => do
    let sni ← sniValue hostname
    .ok (some sni)

/-- The key under which a name is counted. -/
def SniValue.key : SniValue → String
  | .ascii s => s
  | .asciiWithControl hostname _ => hostname
  | .nonAsciiUtf8 hostname _ => hostname
  | .nonUtf8 _ hex => "<non-utf8:" ++ hex ++ ">"

/-! ## State -/

/-- `client_buf`, `client_hs_carry` and `client_hello_seen`, or those of the server. -/
structure Side where
  buf : List UInt8 := []
  hsCarry : List UInt8 := []
  helloSeen : Bool := false
  deriving DecidableEq

structure TlsFlowState where
  client : Side := {}
  server : Side := {}
  lastTs : UInt32 := 0
  deriving DecidableEq

namespace TlsFlowState

def done (flow : TlsFlowState) : Bool := flow.client.helloSeen && flow.server.helloSeen

def side (flow : TlsFlowState) : Direction → Side
  | .clientToServer => flow.client
  | .serverToClient => flow.server

def setSide (flow : TlsFlowState) (dir : Direction) (side : Side) : TlsFlowState :=
  match dir with
  | .clientToServer => { flow with client := side }
  | .serverToClient => { flow with server := side }

end TlsFlowState

structure TlsAnalyzer where
  flows : SortedMap FlowKey TlsFlowState
  sniCounts : SortedMap String Nat
  ja3Counts : SortedMap String Nat
  ja3sCounts : SortedMap String Nat
  versionCounts : SortedMap UInt16 Nat
  cipherCounts : SortedMap String Nat
  handshakesSeen : Nat
  parseErrors : Nat
  truncatedRecords : Nat
  handshakeReassemblyOverflows : Nat
  bufferSaturationDrops : Nat
  droppedMapEntries : Nat
  findings : List Finding
  /-- What the message parser has been given so far. -/
  handed : List (List UInt8)

def TlsAnalyzer.new : TlsAnalyzer where
  flows := .empty
  sniCounts := .empty
  ja3Counts := .empty
  ja3sCounts := .empty
  versionCounts := .empty
  cipherCounts := .empty
  handshakesSeen := 0
  parseErrors := 0
  truncatedRecords := 0
  handshakeReassemblyOverflows := 0
  bufferSaturationDrops := 0
  droppedMapEntries := 0
  findings := []
  handed := []

/-! ## Hellos -/

/-- A new key is refused when the map is full, and then counted. -/
def increment {κ : Type} [LinearOrder κ] (counts : SortedMap κ Nat) (key : κ)
    (limit dropped : Nat) : Checked (SortedMap κ Nat × Nat) :=
  if counts.size < limit || (counts.get? key).isSome then do
    let (counts, _) ← countEntry 64 counts key
    .ok (counts, dropped)
  else .ok (counts, bump64 dropped)

def finding (verdict : Verdict) (confidence : Confidence) (summary : String)
    (evidence mitreTechniques : List String) (lastTs : UInt32) (direction : Direction) :
    Finding where
  category := .anomaly
  verdict := verdict
  confidence := confidence
  summary := summary
  evidence := evidence
  mitreTechniques := mitreTechniques
  sourceIp := none
  timestamp := some lastTs
  direction := some direction

/-- The extensions, of which there are none if they cannot be parsed; this is counted. -/
def parseExtensions (lib : TlsParser) (ext : Option (List UInt8)) (parseErrors : Nat) :
    List TlsExtension × Nat :=
  match ext with
  | none => ([], parseErrors)
  | some raw =>
    match lib.extensions raw with
    | some exts => (exts, parseErrors)
    | none => ([], bump64 parseErrors)

def countVersion (s : TlsAnalyzer) (version : UInt16) : Checked TlsAnalyzer := do
  let (counts, dropped) ← increment s.versionCounts version maxMapEntries s.droppedMapEntries
  .ok { s with versionCounts := counts, droppedMapEntries := dropped }

def countSni (s : TlsAnalyzer) (key : String) : Checked TlsAnalyzer := do
  let (counts, dropped) ← increment s.sniCounts key maxMapEntries s.droppedMapEntries
  .ok { s with sniCounts := counts, droppedMapEntries := dropped }

def countJa3 (s : TlsAnalyzer) (hash : String) : Checked TlsAnalyzer := do
  let (counts, dropped) ← increment s.ja3Counts hash maxMapEntries s.droppedMapEntries
  .ok { s with ja3Counts := counts, droppedMapEntries := dropped }

def countJa3s (s : TlsAnalyzer) (hash : String) : Checked TlsAnalyzer := do
  let (counts, dropped) ← increment s.ja3sCounts hash maxMapEntries s.droppedMapEntries
  .ok { s with ja3sCounts := counts, droppedMapEntries := dropped }

def countCipher (s : TlsAnalyzer) (name : String) : Checked TlsAnalyzer := do
  let (counts, dropped) ← increment s.cipherCounts name maxMapEntries s.droppedMapEntries
  .ok { s with cipherCounts := counts, droppedMapEntries := dropped }

def sniFindings (sni : SniValue) (lastTs : UInt32) : List Finding :=
  let raise := fun summary hex =>
    [finding .inconclusive .low summary ["hex: " ++ hex] ["T1027"] lastTs .clientToServer]
  match sni with
  | .ascii _ => []
  | .asciiWithControl hostname hex =>
    raise ("TLS SNI contains ASCII control characters (RFC 6066 §3 requires ASCII; DNS " ++
      "preferred hostname syntax per RFC 952 / RFC 1123 restricts to letters, digits, and " ++
      "hyphens): " ++ hostname) hex
  | .nonAsciiUtf8 hostname hex =>
    let controlClause :=
      if hostname.toList.any isControl then " and ASCII control bytes" else ""
    raise ("TLS SNI contains non-ASCII characters" ++ controlClause ++
      " (RFC 6066 requires A-labels per RFC 5890): " ++ hostname) hex
  | .nonUtf8 lossy hex =>
    raise ("TLS SNI contains non-UTF-8 bytes (RFC 6066 violation): " ++ lossy) hex

def weakCipherEvidenceCap : Nat := 64

def weakCipherEvidence (lib : TlsParser) (ciphers : List UInt16) : List String :=
  let weak := ciphers.filter (isWeakCipher lib)
  (weak.take weakCipherEvidenceCap).map (cipherName lib) ++
    if weak.length > weakCipherEvidenceCap then
      ["(+" ++ toString (weak.length - weakCipherEvidenceCap) ++ " more)"]
    else []

def weakCipherFindings (lib : TlsParser) (ciphers : List UInt16) (lastTs : UInt32) :
    List Finding :=
  let weak := weakCipherEvidence lib ciphers
  if weak.isEmpty then []
  else [finding .likely .high "ClientHello offers weak cipher suites (NULL/anonymous/export)" weak
    [] lastTs .clientToServer]

def deprecatedFindings (version : UInt16) (subject : String) (lastTs : UInt32)
    (direction : Direction) : List Finding :=
  if version ≤ 0x0300 then
    let versionName :=
      if version = 0x0200 then "SSL 2.0"
      else if version = 0x0300 then "SSL 3.0"
      else "Unknown legacy SSL"
    [finding .likely .high
      (subject ++ " deprecated protocol (" ++ versionName ++ ", RFC 7568 prohibits SSLv3)")
      ["Version: 0x" ++ Text.hexLower 4 version.toNat ++ " (" ++ versionName ++ ")"] [] lastTs
      direction]
  else []

def recordSni (s : TlsAnalyzer) (sni : Option SniValue) (lastTs : UInt32) : Checked TlsAnalyzer :=
  match sni with
  | none => .ok s
  | some sni => do
    let s ← countSni s sni.key
    .ok { s with findings := s.findings ++ sniFindings sni lastTs }

def handleClientHello (lib : TlsParser) (s : TlsAnalyzer) (ch : ClientHelloContents)
    (lastTs : UInt32) : Checked TlsAnalyzer := do
  let s := { s with handshakesSeen := bump64 s.handshakesSeen }
  let s ← countVersion s ch.version
  let (exts, parseErrors) := parseExtensions lib ch.ext s.parseErrors
  let s := { s with parseErrors := parseErrors }
  let sni ← extractSni exts
  let s ← recordSni s sni lastTs
  let s ← countJa3 s (computeJa3 lib ch.version ch.ciphers exts).1
  .ok { s with findings := s.findings ++ weakCipherFindings lib ch.ciphers lastTs ++
    deprecatedFindings ch.version "ClientHello uses" lastTs .clientToServer }

def handleServerHello (lib : TlsParser) (s : TlsAnalyzer) (sh : ServerHelloContents)
    (lastTs : UInt32) : Checked TlsAnalyzer := do
  let s ← countVersion s sh.version
  let (exts, parseErrors) := parseExtensions lib sh.ext s.parseErrors
  let s := { s with parseErrors := parseErrors }
  let s ← countJa3s s (computeJa3s lib sh.version sh.cipher exts)
  let name := cipherName lib sh.cipher
  let s ← countCipher s name
  let weak :=
    if isWeakServerCipher lib sh.cipher then
      [finding .likely .medium ("ServerHello selected weak cipher suite (" ++ name ++ ")")
        ["Selected cipher: " ++ name ++ " (0x" ++ Text.hexLower 4 sh.cipher.toNat ++ ")"] [] lastTs
        .serverToClient]
    else []
  .ok { s with findings := s.findings ++ weak ++
    deprecatedFindings sh.version "ServerHello negotiated" lastTs .serverToClient }

/-! ## Messages -/

/-- `u24` at the second byte of a message. -/
def bodyLen (carry : List UInt8) : Nat :=
  65536 * (byteAt carry 1).toNat + 256 * (byteAt carry 2).toNat + (byteAt carry 3).toNat

def expectedMsgType : Direction → UInt8
  | .clientToServer => 0x01
  | .serverToClient => 0x02

def seeHello (flow : TlsFlowState) (dir : Direction) : TlsFlowState :=
  flow.setSide dir { flow.side dir with helloSeen := true }

/-- A message of the expected type goes to the parser; the others are passed over. -/
def dispatchMessage (lib : TlsParser) (dir : Direction) (lastTs : UInt32) (s : TlsAnalyzer)
    (flow : TlsFlowState) (msgBytes : List UInt8) : Checked (TlsAnalyzer × TlsFlowState) :=
  if byteAt msgBytes 0 = expectedMsgType dir then
    let s := { s with handed := s.handed ++ [msgBytes] }
    match lib.messageHandshake msgBytes, dir with
    | some (.clientHello ch), .clientToServer => do
      let s ← handleClientHello lib s ch lastTs
      .ok (s, seeHello flow dir)
    | some (.serverHello sh), .serverToClient => do
      let s ← handleServerHello lib s sh lastTs
      .ok (s, seeHello flow dir)
    | _, _ => .ok ({ s with parseErrors := bump64 s.parseErrors }, flow)
  else .ok (s, flow)

/-- The drain loop, with what it leaves of the carry. -/
def drainCarry (lib : TlsParser) (dir : Direction) (lastTs : UInt32) :
    Nat → TlsAnalyzer → TlsFlowState → List UInt8 →
      Checked (TlsAnalyzer × TlsFlowState × List UInt8)
  | 0, s, flow, carry => .ok (s, flow, carry)
  | turns + 1, s, flow, carry =>
    if carry.length < 4 then .ok (s, flow, carry)
    else if bodyLen carry > maxBuf then
      .ok ({ s with handshakeReassemblyOverflows := bump64 s.handshakeReassemblyOverflows }, flow,
        [])
    else if carry.length < 4 + bodyLen carry then .ok (s, flow, carry)
    else do
      let (s, flow) ← dispatchMessage lib dir lastTs s flow (carry.take (4 + bodyLen carry))
      drainCarry lib dir lastTs turns s flow (carry.drop (4 + bodyLen carry))

def processHandshakeCarry (lib : TlsParser) (s : TlsAnalyzer) (flow : TlsFlowState)
    (dir : Direction) (carry : List UInt8) (lastTs : UInt32) :
    Checked (TlsAnalyzer × TlsFlowState) := do
  let (s, flow, carry) ← drainCarry lib dir lastTs carry.length s flow carry
  .ok (s, flow.setSide dir { flow.side dir with hsCarry := carry })

/-! ## Records -/

inductive RecordStep
  | wait
  | goOn
  | oversizedRecord
  | carryOverflow
  | handshake (carry : List UInt8) (lastTs : UInt32)

def payloadLen (buf : List UInt8) : Nat := (beU16 (byteAt buf 3) (byteAt buf 4)).toNat

def prepareRecordStep (flow : TlsFlowState) (dir : Direction) : TlsFlowState × RecordStep :=
  let side := flow.side dir
  let buf := side.buf
  if buf.length < 5 then (flow, .wait)
  else if payloadLen buf > maxRecordPayload then
    (flow.setSide dir { side with buf := [] }, .oversizedRecord)
  else
    let totalRecordLen := 5 + payloadLen buf
    if buf.length < totalRecordLen then (flow, .wait)
    else if byteAt buf 0 ≠ 0x16 then
      (flow.setSide dir { side with buf := buf.drop totalRecordLen }, .goOn)
    else if side.hsCarry.length + payloadLen buf > maxBuf then
      (flow.setSide dir { side with buf := buf.drop totalRecordLen, hsCarry := [] },
        .carryOverflow)
    else
      (flow.setSide dir { side with buf := buf.drop totalRecordLen, hsCarry := [] },
        .handshake (side.hsCarry ++ (buf.take totalRecordLen).drop 5) flow.lastTs)

def tryParseRecords (lib : TlsParser) (dir : Direction) :
    Nat → TlsAnalyzer → TlsFlowState → Checked (TlsAnalyzer × TlsFlowState)
  | 0, s, flow => .ok (s, flow)
  | turns + 1, s, flow =>
    match prepareRecordStep flow dir with
    | (flow, .wait) => .ok (s, flow)
    | (flow, .goOn) => tryParseRecords lib dir turns s flow
    | (flow, .oversizedRecord) =>
      .ok ({ s with
        parseErrors := bump64 s.parseErrors
        truncatedRecords := bump64 s.truncatedRecords }, flow)
    | (flow, .carryOverflow) =>
      tryParseRecords lib dir turns
        { s with handshakeReassemblyOverflows := bump64 s.handshakeReassemblyOverflows } flow
    | (flow, .handshake carry lastTs) => do
      let (s, flow) ← processHandshakeCarry lib s flow dir carry lastTs
      tryParseRecords lib dir turns s flow

/-! ## `on_data` -/

/-- As much of `data` as there is room for. -/
def Side.append (side : Side) (data : List UInt8) : Side :=
  let remaining := maxBuf - side.buf.length
  if remaining > 0 then { side with buf := side.buf ++ data.take (min data.length remaining) }
  else side

def onData (lib : TlsParser) (s : TlsAnalyzer) (flowKey : FlowKey) (dir : Direction)
    (data : List UInt8) (timestamp : UInt32) : Checked TlsAnalyzer :=
  if ((s.flows.get? flowKey).getD {}).done then .ok s
  else do
    let flow := { (s.flows.get? flowKey).getD {} with lastTs := timestamp }
    let side := flow.side dir
    let didDrop := data.length > maxBuf - side.buf.length
    let s :=
      if didDrop then { s with bufferSaturationDrops := bump64 s.bufferSaturationDrops } else s
    let flow := flow.setSide dir (side.append data)
    let (s, flow) ← tryParseRecords lib dir (flow.side dir).buf.length s flow
    .ok { s with flows := s.flows.insert flowKey flow }

def onFlowClose (s : TlsAnalyzer) (flowKey : FlowKey) : TlsAnalyzer :=
  { s with flows := s.flows.erase flowKey }

end Wirerust.Tls
