import Wirerust.Analyzer.ArpBindings
import Wirerust.CoverageGaps
import Wirerust.DecoderArp
import Wirerust.Summary
import Wirerust.Text

/-!
The two pipelines (`main.rs`): the packet loops of `run_analyze` and of `run_summary`.

Files are what `PcapSource::from_file` gives for the paths, in order, and `decode` stands for
`decode_packet`. The reassembler writes its calls to the dispatcher down, and the dispatcher takes
those of a packet when the reassembler is through with it. Warnings and progress bars are left out.
-/

namespace Wirerust.Pipelines

open Lib Wirerust.Analyzer Wirerust.Decoder Wirerust.Dispatcher Wirerust.Engine
open Wirerust.Capture (DataLink PcapSource RawPacket)

/-! ## DNS -/

structure DnsAnalyzer where
  queryCount : Nat
  responseCount : Nat

namespace DnsAnalyzer

def new : DnsAnalyzer := ⟨0, 0⟩

def isDnsPort (src dst : UInt16) : Bool := src = 53 || dst = 53

/-- A short payload is counted as a response. -/
def isQuery (payload : List UInt8) : Bool :=
  if payload.length < 12 then false else byteAt payload 2 &&& 0x80 = 0

def canDecode (packet : ParsedPacket) : Bool :=
  match packet.transport with
  | .udp srcPort dstPort => isDnsPort srcPort dstPort
  | .tcp fields => isDnsPort fields.srcPort fields.dstPort
  | .none => false

/-- There are never any findings. -/
def analyze (s : DnsAnalyzer) (packet : ParsedPacket) : DnsAnalyzer × List Finding :=
  if isQuery packet.payload then ({ s with queryCount := bump64 s.queryCount }, [])
  else ({ s with responseCount := bump64 s.responseCount }, [])

end DnsAnalyzer

/-- `udp_gap_key` of the dispatcher. -/
def udpGapKey (parsed : ParsedPacket) (dnsHandles : Bool) : Option (TransportProto ×ₗ UInt16) :=
  if dnsHandles then none
  else
    match parsed.transport with
    | .udp srcPort dstPort => some (toLex (.udp, min srcPort dstPort))
    | _ => none

/-! ## `run_analyze` -/

abbrev Decode := List UInt8 → DataLink → Decoded

/-- What `PcapSource::from_file` gives. -/
abbrev CaptureFile := Except Capture.Error PcapSource

/-- The flags that the loop itself looks at; the others decide on the analyzers there are. -/
structure Flags where
  enableDns : Bool
  enableArp : Bool
  coverageGaps : Bool

/-- The order in which the hash maps of the reassembler and of the ARP analyzer are visited. -/
structure Orders where
  iter : IterOrder
  tables : Arp.TableOrder

structure Analysis (a : Analyzers) where
  summary : Summary
  totalDecodeErrors : Nat
  allFindings : List Finding
  dnsAnalyzer : DnsAnalyzer
  arpAnalyzer : Arp.ArpAnalyzer
  reassembler : Option TcpReassembler
  dispatcher : StreamDispatcher a
  udpUnclassifiedCounts : SortedMap (TransportProto ×ₗ UInt16) Nat
  anyError : Bool

section Analyze

variable {a : Analyzers} (decode : Decode) (flags : Flags) (ord : Orders)

/-- Before the first file. -/
def Analysis.start (arpAnalyzer : Arp.ArpAnalyzer) (reassembler : Option TcpReassembler)
    (dispatcher : StreamDispatcher a) : Analysis a where
  summary := .new
  totalDecodeErrors := 0
  allFindings := []
  dnsAnalyzer := .new
  arpAnalyzer := arpAnalyzer
  reassembler := reassembler
  dispatcher := dispatcher
  udpUnclassifiedCounts := .empty
  anyError := false

def analyzeDns (s : Analysis a) (parsed : ParsedPacket) : Analysis a :=
  if flags.enableDns && DnsAnalyzer.canDecode parsed then
    let (dnsAnalyzer, findings) := s.dnsAnalyzer.analyze parsed
    { s with dnsAnalyzer := dnsAnalyzer, allFindings := s.allFindings ++ findings }
  else s

def reassemble (s : Analysis a) (parsed : ParsedPacket) (timestampSecs : UInt32) :
    Checked (Analysis a) :=
  match s.reassembler with
  | none => .ok s
  | some reasm => do
    let reasm' ← processPacket ord.iter reasm parsed timestampSecs
    let dispatcher ←
      run CoverageGaps.handle s.dispatcher (reasm'.events.drop reasm.events.length)
    .ok { s with reassembler := some reasm', dispatcher := dispatcher }

def countGap (s : Analysis a) (parsed : ParsedPacket) : Analysis a :=
  if flags.coverageGaps then
    match udpGapKey parsed (DnsAnalyzer.canDecode parsed) with
    | some key =>
      let count := (s.udpUnclassifiedCounts.get? key).getD 0
      { s with udpUnclassifiedCounts := s.udpUnclassifiedCounts.insert key (bump64 count) }
    | none => s
  else s

def analyzeIp (s : Analysis a) (parsed : ParsedPacket) (packetLen : Nat) (timestampSecs : UInt32) :
    Checked (Analysis a) := do
  let summary ← s.summary.ingest parsed packetLen
  let s := analyzeDns flags { s with summary := summary } parsed
  let s ← reassemble ord s parsed timestampSecs
  .ok (countGap flags s parsed)

def analyzeArp (s : Analysis a) (frame : Arp.ArpFrame) (timestampSecs : UInt32) :
    Checked (Analysis a) :=
  if flags.enableArp then do
    let (arpAnalyzer, findings) ← Arp.processArp ord.tables s.arpAnalyzer frame timestampSecs
    .ok { s with arpAnalyzer := arpAnalyzer, allFindings := s.allFindings ++ findings }
  else .ok s

/-- A malformed ARP frame is told from other errors by the text of the message. -/
def isMalformedArp (e : String) : Bool := Text.contains e "Non-Ethernet/IPv4 ARP frame"

def analyzeMalformed (s : Analysis a) (packetLen : Nat) : Analysis a :=
  if flags.enableArp then
    let (arpAnalyzer, findings) := Arp.recordMalformed s.arpAnalyzer packetLen
    { s with arpAnalyzer := arpAnalyzer, allFindings := s.allFindings ++ findings }
  else
    { s with
      arpAnalyzer :=
        { s.arpAnalyzer with malformedFrames := bump64 s.arpAnalyzer.malformedFrames } }

def analyzePacket (datalink : DataLink) (s : Analysis a) (raw : RawPacket) :
    Checked (Analysis a) :=
  match decode raw.data datalink with
  | .ok (.ip parsed packetLen) => analyzeIp flags ord s parsed packetLen raw.timestampSecs
  | .ok (.arp frame) => analyzeArp flags ord s frame raw.timestampSecs
  | .error e =>
    if isMalformedArp e then .ok (analyzeMalformed flags s raw.data.length)
    else .ok { s with totalDecodeErrors := bump64 s.totalDecodeErrors }

def analyzeFile (s : Analysis a) (file : CaptureFile) : Checked (Analysis a) :=
  match file with
  | .error _ => .ok { s with anyError := true }
  | .ok source =>
    if source.packets.isEmpty then .ok s
    else run (analyzePacket decode flags ord source.datalink) s source.packets

/-- The summary that `run_analyze` reports. -/
def runAnalyze (s : Analysis a) (files : List CaptureFile) : Checked Summary := do
  let s ← run (analyzeFile decode flags ord) s files
  .ok { s.summary with skippedPackets := s.totalDecodeErrors }

end Analyze

/-! ## `run_summary` -/

structure Triage where
  summary : Summary
  totalDecodeErrors : Nat
  anyError : Bool

section Summarize

variable (decode : Decode)

def Triage.start : Triage := ⟨.new, 0, false⟩

def summarizePacket (datalink : DataLink) (t : Triage) (raw : RawPacket) : Checked Triage :=
  match decode raw.data datalink with
  | .ok (.ip parsed packetLen) => do
    let summary ← t.summary.ingest parsed packetLen
    .ok { t with summary := summary }
  | .ok (.arp _) => .ok t
  | .error _ => .ok { t with totalDecodeErrors := bump64 t.totalDecodeErrors }

def summarizeFile (t : Triage) (file : CaptureFile) : Checked Triage :=
  match file with
  | .error _ => .ok { t with anyError := true }
  | .ok source =>
    if source.packets.isEmpty then .ok t
    else run (summarizePacket decode source.datalink) t source.packets

/-- The summary that `run_summary` reports. -/
def runSummary (files : List CaptureFile) : Checked Summary := do
  let t ← run (summarizeFile decode) .start files
  .ok { t.summary with skippedPackets := t.totalDecodeErrors }

end Summarize

/-! ## What the analyzers leave alone -/

section Frame

variable {a : Analyzers} {flags : Flags} {ord : Orders}

structure SameTotals (s s' : Analysis a) : Prop where
  summary : s'.summary = s.summary
  totalDecodeErrors : s'.totalDecodeErrors = s.totalDecodeErrors

theorem SameTotals.trans {s s' s'' : Analysis a} (h : SameTotals s s') (h' : SameTotals s' s'') :
    SameTotals s s'' :=
  ⟨h'.summary.trans h.summary, h'.totalDecodeErrors.trans h.totalDecodeErrors⟩

theorem analyzeDns_same (flags : Flags) (s : Analysis a) (parsed : ParsedPacket) :
    SameTotals s (analyzeDns flags s parsed) := by
  unfold analyzeDns
  split
  · exact ⟨rfl, rfl⟩
  · exact ⟨rfl, rfl⟩

theorem reassemble_same {s s' : Analysis a} {parsed : ParsedPacket} {timestampSecs : UInt32}
    (h : reassemble ord s parsed timestampSecs = .ok s') : SameTotals s s' := by
  unfold reassemble at h
  cases hreasm : s.reassembler with
  | none =>
    rw [hreasm] at h
    cases h
    exact ⟨rfl, rfl⟩
  | some reasm =>
    rw [hreasm] at h
    obtain ⟨reasm', -, h⟩ := bind_eq_ok.mp h
    obtain ⟨dispatcher, -, h⟩ := bind_eq_ok.mp h
    cases h
    exact ⟨rfl, rfl⟩

theorem countGap_same (flags : Flags) (s : Analysis a) (parsed : ParsedPacket) :
    SameTotals s (countGap flags s parsed) := by
  unfold countGap
  split
  · split
    · exact ⟨rfl, rfl⟩
    · exact ⟨rfl, rfl⟩
  · exact ⟨rfl, rfl⟩

theorem analyzeArp_same {s s' : Analysis a} {frame : Arp.ArpFrame} {timestampSecs : UInt32}
    (h : analyzeArp flags ord s frame timestampSecs = .ok s') : SameTotals s s' := by
  unfold analyzeArp at h
  split at h
  · obtain ⟨⟨arpAnalyzer, findings⟩, -, h⟩ := bind_eq_ok.mp h
    cases h
    exact ⟨rfl, rfl⟩
  · cases h
    exact ⟨rfl, rfl⟩

theorem analyzeMalformed_same (flags : Flags) (s : Analysis a) (packetLen : Nat) :
    SameTotals s (analyzeMalformed flags s packetLen) := by
  unfold analyzeMalformed
  split
  · exact ⟨rfl, rfl⟩
  · exact ⟨rfl, rfl⟩

/-- An IP packet is ingested, and the rest is up to the analyzers. -/
theorem analyzeIp_ingests {s s' : Analysis a} {parsed : ParsedPacket} {packetLen : Nat}
    {timestampSecs : UInt32} (h : analyzeIp flags ord s parsed packetLen timestampSecs = .ok s') :
    s.summary.ingest parsed packetLen = .ok s'.summary ∧
      s'.totalDecodeErrors = s.totalDecodeErrors := by
  obtain ⟨summary, hsummary, h⟩ := bind_eq_ok.mp h
  obtain ⟨s₁, hreassemble, h⟩ := bind_eq_ok.mp h
  cases h
  have hsame := ((analyzeDns_same flags { s with summary := summary } parsed).trans
    (reassemble_same hreassemble)).trans (countGap_same flags s₁ parsed)
  exact ⟨hsummary.trans (congrArg Except.ok hsame.summary.symm), hsame.totalDecodeErrors⟩

end Frame

/-! ## Side by side -/

/-- The packets of the files that can be read, each with the link type of its file. -/
def packetsOf (files : List CaptureFile) : List (List UInt8 × DataLink) :=
  files.flatMap fun file =>
    match file with
    | .error _ => []
    | .ok source => source.packets.map fun raw => (raw.data, source.datalink)

section Beside

variable {a : Analyzers} (decode : Decode)

/-- The packet cannot be decoded, with a message for which `q` holds. -/
def fails (q : String → Bool) (p : List UInt8 × DataLink) : Bool :=
  match decode p.1 p.2 with
  | .ok _ => false
  | .error e => q e

def malformedArps (packets : List (List UInt8 × DataLink)) : Nat :=
  packets.countP (fails decode isMalformedArp)

def otherErrors (packets : List (List UInt8 × DataLink)) : Nat :=
  packets.countP (fails decode fun e => !isMalformedArp e)

/-- Both loops after the same packets. -/
structure Beside (seen : List (List UInt8 × DataLink)) (s : Analysis a) (t : Triage) : Prop where
  summary : t.summary = s.summary
  analyzed : s.totalDecodeErrors = min (otherErrors decode seen) (2 ^ 64 - 1)
  summarized : t.totalDecodeErrors =
    min (otherErrors decode seen + malformedArps decode seen) (2 ^ 64 - 1)

variable {decode}

theorem fails_of_ok {p : List UInt8 × DataLink} {d : DecodedFrame} (h : decode p.1 p.2 = .ok d)
    (q : String → Bool) : fails decode q p = false := by
  rw [fails, h]

theorem fails_of_error {p : List UInt8 × DataLink} {e : String} (h : decode p.1 p.2 = .error e)
    (q : String → Bool) : fails decode q p = q e := by
  rw [fails, h]

theorem Beside.decoded {seen : List (List UInt8 × DataLink)} {s s' : Analysis a} {t t' : Triage}
    (h : Beside decode seen s t) {p : List UInt8 × DataLink} {d : DecodedFrame}
    (hdecode : decode p.1 p.2 = .ok d) (hsummary : t'.summary = s'.summary)
    (hs : s'.totalDecodeErrors = s.totalDecodeErrors)
    (ht : t'.totalDecodeErrors = t.totalDecodeErrors) : Beside decode (seen ++ [p]) s' t' := by
  refine ⟨hsummary, hs.trans (h.analyzed.trans ?_), ht.trans (h.summarized.trans ?_)⟩
  · rw [otherErrors, otherErrors, countP_snoc, fails_of_ok hdecode]
    rfl
  · rw [otherErrors, otherErrors, malformedArps, malformedArps, countP_snoc, countP_snoc,
      fails_of_ok hdecode, fails_of_ok hdecode]
    rfl

variable {flags : Flags} {ord : Orders} {datalink : DataLink} {raw : RawPacket}

theorem Beside.packet {seen : List (List UInt8 × DataLink)} {s s' : Analysis a} {t : Triage}
    (h : Beside decode seen s t)
    (hs : analyzePacket decode flags ord datalink s raw = .ok s') :
    ∃ t', summarizePacket decode datalink t raw = .ok t' ∧
      Beside decode (seen ++ [(raw.data, datalink)]) s' t' := by
  unfold analyzePacket at hs
  unfold summarizePacket
  cases hdecode : decode raw.data datalink with
  | ok d =>
    rw [hdecode] at hs
    cases d with
    | ip parsed packetLen =>
      obtain ⟨hingest, hsame⟩ := analyzeIp_ingests hs
      refine ⟨{ t with summary := s'.summary }, ?_, h.decoded hdecode rfl hsame rfl⟩
      exact bind_eq_ok.mpr ⟨s'.summary, h.summary ▸ hingest, rfl⟩
    | arp frame =>
      have hsame := analyzeArp_same hs
      exact ⟨t, rfl, h.decoded hdecode (h.summary.trans hsame.summary.symm)
        hsame.totalDecodeErrors rfl⟩
  | error e =>
    rw [hdecode] at hs
    simp only at hs
    refine ⟨_, rfl, ?_⟩
    have hfails : ∀ q, fails decode q (raw.data, datalink) = q e := fails_of_error hdecode
    cases hmalformed : isMalformedArp e with
    | true =>
      rw [hmalformed, if_pos rfl] at hs
      cases hs
      have hsame := analyzeMalformed_same flags s raw.data.length
      refine ⟨h.summary.trans hsame.summary.symm, ?_, ?_⟩
      · rw [hsame.totalDecodeErrors, h.analyzed, otherErrors, otherErrors, countP_snoc, hfails,
          hmalformed]
        rfl
      · simp only [h.summarized, bump64, saturatingInc_min, otherErrors, malformedArps,
          countP_snoc, hfails, hmalformed]
        rfl
    | false =>
      rw [hmalformed] at hs
      cases hs
      refine ⟨h.summary, ?_, ?_⟩
      · simp only [h.analyzed, bump64, saturatingInc_min, otherErrors, countP_snoc, hfails,
          hmalformed]
        rfl
      · simp only [h.summarized, bump64, saturatingInc_min, otherErrors, malformedArps,
          countP_snoc, hfails, hmalformed]
        simp only [Bool.not_false, Bool.toNat_true, Bool.toNat_false]
        omega

theorem Beside.file {seen : List CaptureFile} {s s' : Analysis a} {t : Triage}
    (h : Beside decode (packetsOf seen) s t) {file : CaptureFile}
    (hs : analyzeFile decode flags ord s file = .ok s') :
    ∃ t', summarizeFile decode t file = .ok t' ∧
      Beside decode (packetsOf (seen ++ [file])) s' t' := by
  have hseen : packetsOf (seen ++ [file]) = packetsOf seen ++ packetsOf [file] :=
    List.flatMap_append
  rw [hseen]
  unfold analyzeFile at hs
  unfold summarizeFile
  cases file with
  | error e =>
    cases hs
    refine ⟨_, rfl, ?_⟩
    rw [show packetsOf [.error e] = [] from rfl, List.append_nil]
    exact ⟨h.summary, h.analyzed, h.summarized⟩
  | ok source =>
    have hpackets : packetsOf [.ok source] =
        source.packets.map fun raw => (raw.data, source.datalink) := List.append_nil _
    rw [hpackets]
    simp only at hs ⊢
    by_cases hempty : source.packets.isEmpty = true
    · rw [if_pos hempty] at hs ⊢
      cases hs
      refine ⟨t, rfl, ?_⟩
      rw [List.isEmpty_iff.mp hempty, List.map_nil, List.append_nil]
      exact h
    · rw [if_neg hempty] at hs ⊢
      refine run_simulates (R := fun pre s t => Beside decode
        (packetsOf seen ++ pre.map fun raw => (raw.data, source.datalink)) s t)
        (fun pre s t raw s' hR hstep => ?_) source.packets ?_ hs
      · obtain ⟨t', ht', hR'⟩ := Beside.packet hR hstep
        refine ⟨t', ht', ?_⟩
        rw [List.map_append, ← List.append_assoc]
        exact hR'
      · rw [List.map_nil, List.append_nil]
        exact h

/-- Both loops, from their starts. -/
theorem run_beside {arpAnalyzer : Arp.ArpAnalyzer} {reassembler : Option TcpReassembler}
    {dispatcher : StreamDispatcher a} {files : List CaptureFile} {s : Analysis a}
    (hs : run (analyzeFile decode flags ord) (.start arpAnalyzer reassembler dispatcher) files =
      .ok s) :
    ∃ t, run (summarizeFile decode) .start files = .ok t ∧
      Beside decode (packetsOf files) s t := by
  refine run_simulates (R := fun seen s t => Beside decode (packetsOf seen) s t)
    (fun seen s t file s' hR hstep => Beside.file hR hstep) files ?_ hs
  exact ⟨rfl, rfl, rfl⟩

end Beside

/-! ## The reports -/

/-- All figures but that of the skipped packets. -/
structure SameFigures (x y : Summary) : Prop where
  totalPackets : x.totalPackets = y.totalPackets
  totalBytes : x.totalBytes = y.totalBytes
  hosts : x.hosts = y.hosts
  protocols : x.protocols = y.protocols
  services : x.services = y.services

theorem SameFigures.eq_iff {x y : Summary} (h : SameFigures x y) :
    x = y ↔ x.skippedPackets = y.skippedPackets := by
  refine ⟨fun heq => congrArg Summary.skippedPackets heq, fun hskipped => ?_⟩
  cases x
  cases y
  simp only [Summary.mk.injEq]
  exact ⟨h.totalPackets, h.totalBytes, hskipped, h.hosts, h.protocols, h.services⟩

/-- Whenever `run_analyze` comes to a summary, so does `run_summary`. They are the same but for the
skipped packets, and these are the same as long as no ARP frame is malformed. -/
theorem pipelines_agree_iff {a : Analyzers} (decode : Decode) (flags : Flags) (ord : Orders)
    (arpAnalyzer : Arp.ArpAnalyzer) (reassembler : Option TcpReassembler)
    (dispatcher : StreamDispatcher a) (files : List CaptureFile) {x : Summary}
    (h : runAnalyze decode flags ord (.start arpAnalyzer reassembler dispatcher) files = .ok x) :
    ∃ y, runSummary decode files = .ok y ∧ SameFigures x y ∧
      (x = y ↔ malformedArps decode (packetsOf files) = 0 ∨
        2 ^ 64 - 1 ≤ otherErrors decode (packetsOf files)) := by
  obtain ⟨s, hs, hx⟩ := bind_eq_ok.mp h
  cases hx
  obtain ⟨t, ht, hbeside⟩ := run_beside hs
  have hfigures : SameFigures { s.summary with skippedPackets := s.totalDecodeErrors }
      { t.summary with skippedPackets := t.totalDecodeErrors } := by
    rw [hbeside.summary]
    exact ⟨rfl, rfl, rfl, rfl, rfl⟩
  refine ⟨_, bind_eq_ok.mpr ⟨t, ht, rfl⟩, hfigures, ?_⟩
  rw [hfigures.eq_iff]
  simp only [hbeside.analyzed, hbeside.summarized]
  omega

/-! ## One frame -/

def oneFrame (data : List UInt8) : List CaptureFile :=
  [.ok ⟨[⟨0, 0, data⟩], .ethernet, 0, 0, false⟩]

def arpDecode : Decode := fun data link => valueOr (.error "") (decodePacket arpOnly data link)

/-- Nothing is analyzed. -/
def quiet : Analysis CoverageGaps.takers :=
  .start (.new 3 100) none (.new none none none none none none)

def plainOrders : Orders := ⟨EngineSpec.keyOrder, .plain⟩

/-- A frame that is cut off is skipped in both. -/
theorem pipelines_agree_iff_cut :
    ∃ x, runAnalyze arpDecode ⟨false, false, false⟩ plainOrders quiet (oneFrame cutRequest.bytes) =
        .ok x ∧
      ∃ y, runSummary arpDecode (oneFrame cutRequest.bytes) = .ok y ∧ SameFigures x y ∧
        (x = y ↔ malformedArps arpDecode (packetsOf (oneFrame cutRequest.bytes)) = 0 ∨
          2 ^ 64 - 1 ≤ otherErrors arpDecode (packetsOf (oneFrame cutRequest.bytes))) :=
  ⟨_, rfl, pipelines_agree_iff arpDecode ⟨false, false, false⟩ plainOrders (.new 3 100) none
    (.new none none none none none none : StreamDispatcher CoverageGaps.takers)
    (oneFrame cutRequest.bytes) rfl⟩

/-- A request with hardware addresses of eight bytes. -/
def longAddresses : List UInt8 :=
  [0xff, 0xff, 0xff, 0xff, 0xff, 0xff, 2, 0, 0, 0, 0, 1, 0x08, 0x06, 0, 1, 8, 0, 8, 4, 0, 1]

/-- A malformed ARP frame is no skipped packet for `run_analyze` and one for `run_summary`. -/
theorem malformed_skipped_once :
    ∃ x y, runAnalyze arpDecode ⟨false, false, false⟩ plainOrders quiet (oneFrame longAddresses) =
        .ok x ∧
      runSummary arpDecode (oneFrame longAddresses) = .ok y ∧
      x.skippedPackets = 0 ∧ y.skippedPackets = 1 :=
  ⟨_, _, rfl, rfl, by decide, by decide⟩

end Wirerust.Pipelines
