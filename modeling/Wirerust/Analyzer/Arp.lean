import Wirerust.Lib.LruTable
import Wirerust.Analyzer.Common

/-!
The ARP analyzer (`analyzer/arp.rs`): a table of the hardware address last seen for each sender
address, and one of the frame rate of each hardware address.

Both tables are bounded, and a new key in a full one takes the place of an oldest entry; among
equally old ones it is the first in the order of the hash map, which is unspecified. A `TableOrder`
fixes that order for every eviction of a run (`evictions` counts them), and every theorem is about
an arbitrary one. Addresses are the numbers their bytes stand for, the first byte on top.
-/

namespace Wirerust.Arp

open Lib Wirerust.Analyzer

/-- `[u8; 6]` -/
abbrev Mac := BitVec 48

/-- `[u8; 4]` -/
abbrev Ipv4 := BitVec 32

/-- `{:02X}` of each byte, with colons between. -/
def showMac (mac : Mac) : String :=
  ":".intercalate ((List.range 6).map fun i => hexUpper 2 (IpAddr.octet 6 mac.toNat i))

def showIp (ip : Ipv4) : String := IpAddr.showV4 ip.toNat

/-- `decoder::ArpFrame`; the analyzer reads neither the target's hardware address nor the length. -/
structure ArpFrame where
  operation : UInt16
  senderMac : Mac
  senderIp : Ipv4
  targetMac : Mac
  targetIp : Ipv4
  outerSrcMac : Option Mac
  packetLen : Nat
  deriving DecidableEq, Repr

def maxArpBindings : Nat := 65536

def maxStormCounters : Nat := 4096

def arpFlapWindowSecs : UInt32 := 60

structure BindingEntry where
  mac : Mac
  rebindCount : Nat
  firstRebindTs : Option UInt32
  spoofHighEmitted : Bool
  lastSeenTs : UInt32
  deriving DecidableEq, Repr

structure StormCounter where
  countInWindow : Nat
  windowStartTs : UInt32
  stormEmitted : Bool
  deriving DecidableEq, Repr

structure ArpAnalyzer where
  bindings : SortedMap Ipv4 BindingEntry
  stormCounters : SortedMap Mac StormCounter
  spoofThreshold : UInt32
  stormRate : UInt32
  framesAnalyzed : Nat
  requestCount : Nat
  replyCount : Nat
  otherOpcodeCount : Nat
  spoofFindings : Nat
  garpFindings : Nat
  stormFindings : Nat
  mismatchFindings : Nat
  malformedFindings : Nat
  malformedFrames : Nat
  bindingsEvicted : Nat
  stormCountersEvicted : Nat
  /-- Evictions so far; not a field of the source. -/
  evictions : Nat

def ArpAnalyzer.new (spoofThreshold stormRate : UInt32) : ArpAnalyzer where
  bindings := .empty
  stormCounters := .empty
  spoofThreshold := spoofThreshold
  stormRate := stormRate
  framesAnalyzed := 0
  requestCount := 0
  replyCount := 0
  otherOpcodeCount := 0
  spoofFindings := 0
  garpFindings := 0
  stormFindings := 0
  mismatchFindings := 0
  malformedFindings := 0
  malformedFrames := 0
  bindingsEvicted := 0
  stormCountersEvicted := 0
  evictions := 0

/-- The orders in which the `n`-th eviction sees the two tables. -/
structure TableOrder where
  bindings : Nat → List (Ipv4 × BindingEntry) → List (Ipv4 × BindingEntry)
  bindings_perm : ∀ n l, (bindings n l).Perm l
  storm : Nat → List (Mac × StormCounter) → List (Mac × StormCounter)
  storm_perm : ∀ n l, (storm n l).Perm l

/-! ## Bindings -/

def isGratuitousArp (frame : ArpFrame) : Bool := frame.senderIp = frame.targetIp

/-- Also whether another entry had to go. -/
def insertBindingLru (visited : List (Ipv4 × BindingEntry)) (bindings : SortedMap Ipv4 BindingEntry)
    (ip : Ipv4) (mac : Mac) (cap : Nat) : SortedMap Ipv4 BindingEntry × Bool :=
  match bindings.get? ip with
  | some entry => (bindings.insert ip { entry with mac := mac }, false)
  | none =>
    let entry : BindingEntry := ⟨mac, 0, none, false, 0⟩
    if bindings.size ≥ cap then
      ((Lru.evict BindingEntry.lastSeenTs visited bindings).insert ip entry, true)
    else (bindings.insert ip entry, false)

/-- `insert_binding_lru` on the analyzer's own table, and its eviction counted. -/
def insertBinding (ord : TableOrder) (s : ArpAnalyzer) (ip : Ipv4) (mac : Mac) : ArpAnalyzer :=
  let visited := ord.bindings s.evictions s.bindings.entries
  let (bindings, evicted) := insertBindingLru visited s.bindings ip mac maxArpBindings
  if evicted then
    { s with
      bindings := bindings
      bindingsEvicted := bump64 s.bindingsEvicted
      evictions := s.evictions + 1 }
  else { s with bindings := bindings }

/-- `bindings.get_mut(&ip)` and a change of what is there. -/
def updateBinding (s : ArpAnalyzer) (ip : Ipv4) (f : BindingEntry → BindingEntry) : ArpAnalyzer :=
  match s.bindings.get? ip with
  | some entry => { s with bindings := s.bindings.insert ip (f entry) }
  | none => s

/-! ## Findings -/

def anomaly (verdict : Verdict) (confidence : Confidence) (summary : String)
    (evidence mitreTechniques : List String) : Finding where
  category := .anomaly
  verdict := verdict
  confidence := confidence
  summary := summary
  evidence := evidence
  mitreTechniques := mitreTechniques
  sourceIp := none
  timestamp := none
  direction := none

def spoofTechniques : List String := ["T0830", "T1557.002"]

def mismatchFinding (frame : ArpFrame) (ethMac : Mac) : Finding :=
  anomaly .possible .medium
    "D12: L2/L3 sender-MAC mismatch — Ethernet src MAC differs from ARP sender HW addr"
    ["eth_src_mac=" ++ showMac ethMac, "arp_sender_mac=" ++ showMac frame.senderMac,
      "sender_ip=" ++ showIp frame.senderIp]
    spoofTechniques

def garpFinding (frame : ArpFrame) (summary : String) : Finding :=
  anomaly .possible .low summary
    ["sender_ip=" ++ showIp frame.senderIp, "operation=" ++ toString frame.operation] []

/-- A flap window that is over starts again with this rebind. -/
def resetFlapWindow (entry : BindingEntry) (timestampSecs : UInt32) : BindingEntry :=
  match entry.firstRebindTs with
  | some firstTs =>
    if saturatingSub timestampSecs firstTs > arpFlapWindowSecs then
      { entry with rebindCount := 0, firstRebindTs := none, spoofHighEmitted := false }
    else entry
  | none => entry

def d1Finding (senderIp : Ipv4) (oldMac newMac : Mac) (confidence : Confidence) : Finding :=
  anomaly (if confidence = .high then .likely else .possible) confidence
    ("D1: ARP Spoof — IP→MAC rebind detected for sender_ip=" ++ showIp senderIp)
    ["sender_ip=" ++ showIp senderIp, "old_mac=" ++ showMac oldMac, "new_mac=" ++ showMac newMac]
    spoofTechniques

def emitD1SpoofFinding (entry : BindingEntry) (senderIp : Ipv4) (oldMac newMac : Mac)
    (timestampSecs spoofThreshold : UInt32) : Checked (BindingEntry × Finding) := do
  let entry := resetFlapWindow entry timestampSecs
  let entry := { entry with rebindCount := bump32 entry.rebindCount }
  let entry :=
    if entry.firstRebindTs.isNone then { entry with firstRebindTs := some timestampSecs }
    else entry
  let firstTs ← unwrap entry.firstRebindTs
  let elapsed := saturatingSub timestampSecs firstTs
  if entry.rebindCount ≥ spoofThreshold.toNat && elapsed ≤ arpFlapWindowSecs &&
      !entry.spoofHighEmitted then
    .ok ({ entry with spoofHighEmitted := true }, d1Finding senderIp oldMac newMac .high)
  else .ok (entry, d1Finding senderIp oldMac newMac .medium)

/-- The gratuitous frame's own finding is raised to medium, and a D1 finding comes with it. -/
def applyGarpConflictEscalation (entry : BindingEntry) (garpLow : Finding) (senderIp : Ipv4)
    (newMac : Mac) (timestampSecs spoofThreshold : UInt32) :
    Checked (BindingEntry × Finding × Finding) := do
  let upgradedGarp := { garpLow with confidence := .medium, mitreTechniques := spoofTechniques }
  let (entry, d1) ←
    emitD1SpoofFinding entry senderIp entry.mac newMac timestampSecs spoofThreshold
  .ok (entry, upgradedGarp, d1)

/-! ## Storms -/

def insertStormCounterLru (ord : TableOrder) (s : ArpAnalyzer) (sourceMac : Mac)
    (timestampSecs : UInt32) : ArpAnalyzer :=
  let s :=
    if (s.stormCounters.get? sourceMac).isNone && s.stormCounters.size ≥ maxStormCounters then
      let visited := ord.storm s.evictions s.stormCounters.entries
      { s with
        stormCounters := Lru.evict StormCounter.windowStartTs visited s.stormCounters
        stormCountersEvicted := bump64 s.stormCountersEvicted
        evictions := s.evictions + 1 }
    else s
  { s with stormCounters := s.stormCounters.insert sourceMac ⟨1, timestampSecs, false⟩ }

def stormFinding (mac : Mac) (frameCount : Nat) (windowSecs : UInt32) (ratePps : Nat) : Finding :=
  anomaly .possible .medium
    ("D3: ARP storm detected — high ARP frame rate from source MAC " ++ showMac mac)
    ["source_mac=" ++ showMac mac, "frame_count=" ++ toString frameCount,
      "window_secs=" ++ toString windowSecs, "rate_pps=" ++ toString ratePps] []

/-- The frame opens a window of its address or is counted in the open one. -/
def countStorm (ord : TableOrder) (s : ArpAnalyzer) (sourceMac : Mac) (timestampSecs : UInt32) :
    ArpAnalyzer :=
  match s.stormCounters.get? sourceMac with
  | some entry =>
    if saturatingSub timestampSecs entry.windowStartTs ≤ arpFlapWindowSecs then
      let entry := { entry with countInWindow := bump64 entry.countInWindow }
      { s with stormCounters := s.stormCounters.insert sourceMac entry }
    else insertStormCounterLru ord s sourceMac timestampSecs
  | none => insertStormCounterLru ord s sourceMac timestampSecs

def detectStorm (ord : TableOrder) (s : ArpAnalyzer) (sourceMac : Mac) (timestampSecs : UInt32) :
    ArpAnalyzer × Option Finding :=
  let s := countStorm ord s sourceMac timestampSecs
  match s.stormCounters.get? sourceMac with
  | none => (s, none)
  | some entry =>
    let elapsed := saturatingSub timestampSecs entry.windowStartTs
    let rate := entry.countInWindow / max elapsed.toNat 1
    if rate ≥ s.stormRate.toNat && !entry.stormEmitted then
      let entry := { entry with stormEmitted := true }
      ({ s with stormCounters := s.stormCounters.insert sourceMac entry },
        some (stormFinding sourceMac entry.countInWindow elapsed rate))
    else (s, none)

/-! ## `process_arp` -/

def countFrame (s : ArpAnalyzer) (operation : UInt16) : ArpAnalyzer :=
  let s := { s with framesAnalyzed := bump64 s.framesAnalyzed }
  if operation = 1 then { s with requestCount := bump64 s.requestCount }
  else if operation = 2 then { s with replyCount := bump64 s.replyCount }
  else { s with otherOpcodeCount := bump64 s.otherOpcodeCount }

/-- The sender address is zero or the broadcast address. -/
def isIgnored (frame : ArpFrame) : Bool :=
  frame.senderIp = 0 || frame.senderIp = BitVec.allOnes 32

/-- The Ethernet source, if it is not the sender's address. -/
def mismatch (frame : ArpFrame) : Option Mac :=
  frame.outerSrcMac.filter fun ethMac => ethMac ≠ frame.senderMac

def checkMismatch (s : ArpAnalyzer) (frame : ArpFrame) : ArpAnalyzer × List Finding :=
  match mismatch frame with
  | some ethMac =>
    ({ s with mismatchFindings := bump64 s.mismatchFindings }, [mismatchFinding frame ethMac])
  | none => (s, [])

def checkStorm (ord : TableOrder) (s : ArpAnalyzer) (frame : ArpFrame) (timestampSecs : UInt32) :
    ArpAnalyzer × List Finding :=
  match detectStorm ord s frame.senderMac timestampSecs with
  | (s, some finding) => ({ s with stormFindings := bump64 s.stormFindings }, [finding])
  | (s, none) => (s, [])

/-- `bindings.get(&sender_ip).map(|e| e.mac != sender_mac).unwrap_or(false)` -/
def hasConflict (s : ArpAnalyzer) (frame : ArpFrame) : Bool :=
  match s.bindings.get? frame.senderIp with
  | some entry => entry.mac ≠ frame.senderMac
  | none => false

def conflictingGarp (s : ArpAnalyzer) (frame : ArpFrame) (timestampSecs : UInt32) :
    Checked (ArpAnalyzer × List Finding) := do
  let garpLow := garpFinding frame
    ("D2: Gratuitous ARP (GARP) with binding conflict — sender_ip equals target_ip and " ++
      "conflicts with an existing IP→MAC binding")
  let entry ← unwrap (s.bindings.get? frame.senderIp)
  let (entry, upgradedGarp, d1) ← applyGarpConflictEscalation entry garpLow frame.senderIp
    frame.senderMac timestampSecs s.spoofThreshold
  let s := { s with
    bindings := s.bindings.insert frame.senderIp entry
    garpFindings := bump64 s.garpFindings
    spoofFindings := bump64 s.spoofFindings }
  let entry ← unwrap (s.bindings.get? frame.senderIp)
  let entry := { entry with lastSeenTs := timestampSecs, mac := frame.senderMac }
  .ok ({ s with bindings := s.bindings.insert frame.senderIp entry }, [upgradedGarp, d1])

def benignGarp (ord : TableOrder) (s : ArpAnalyzer) (frame : ArpFrame) (timestampSecs : UInt32) :
    ArpAnalyzer × List Finding :=
  let s := { s with garpFindings := bump64 s.garpFindings }
  let finding := garpFinding frame "D2: Gratuitous ARP (GARP) — sender_ip equals target_ip"
  let s :=
    if (s.bindings.get? frame.senderIp).isNone then
      insertBinding ord s frame.senderIp frame.senderMac
    else s
  (updateBinding s frame.senderIp fun entry =>
    { entry with lastSeenTs := timestampSecs, mac := frame.senderMac }, [finding])

def bindSender (ord : TableOrder) (s : ArpAnalyzer) (frame : ArpFrame) (timestampSecs : UInt32) :
    Checked (ArpAnalyzer × List Finding) :=
  match s.bindings.get? frame.senderIp with
  | some entry =>
    let entry := { entry with lastSeenTs := timestampSecs }
    let s := { s with bindings := s.bindings.insert frame.senderIp entry }
    if entry.mac ≠ frame.senderMac then do
      let (entry, d1) ← emitD1SpoofFinding entry frame.senderIp entry.mac frame.senderMac
        timestampSecs s.spoofThreshold
      let s := { s with
        bindings := s.bindings.insert frame.senderIp entry
        spoofFindings := bump64 s.spoofFindings }
      let entry ← unwrap (s.bindings.get? frame.senderIp)
      let entry := { entry with mac := frame.senderMac }
      .ok ({ s with bindings := s.bindings.insert frame.senderIp entry }, [d1])
    else .ok (s, [])
  | none =>
    let s := insertBinding ord s frame.senderIp frame.senderMac
    .ok (updateBinding s frame.senderIp fun entry => { entry with lastSeenTs := timestampSecs },
      [])

def checkBinding (ord : TableOrder) (s : ArpAnalyzer) (frame : ArpFrame)
    (timestampSecs : UInt32) : Checked (ArpAnalyzer × List Finding) :=
  if isGratuitousArp frame then
    if hasConflict s frame then conflictingGarp s frame timestampSecs
    else .ok (benignGarp ord s frame timestampSecs)
  else bindSender ord s frame timestampSecs

def processArp (ord : TableOrder) (s : ArpAnalyzer) (frame : ArpFrame) (timestampSecs : UInt32) :
    Checked (ArpAnalyzer × List Finding) :=
  let s := countFrame s frame.operation
  if isIgnored frame then .ok (s, [])
  else do
    let (s, mismatches) := checkMismatch s frame
    let (s, storms) := checkStorm ord s frame timestampSecs
    let (s, bindings) ← checkBinding ord s frame timestampSecs
    .ok (s, mismatches ++ storms ++ bindings)

def recordMalformed (s : ArpAnalyzer) (packetLen : Nat) : ArpAnalyzer × List Finding :=
  ({ s with
      malformedFrames := bump64 s.malformedFrames
      malformedFindings := bump64 s.malformedFindings },
    [anomaly .possible .low
      ("D11: Malformed ARP frame — Non-Ethernet/IPv4 ARP frame (non-standard HW/proto " ++
        "address sizes or types)")
      ["Non-Ethernet/IPv4 ARP frame", "packet_len=" ++ toString packetLen] []])

end Wirerust.Arp
