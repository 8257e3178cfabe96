import Wirerust.Analyzer.Dnp3Closing
import Wirerust.Analyzer.EnipClosing
import Wirerust.Analyzer.Iec104Closing
import Wirerust.Reporter.Safety
import Wirerust.RunAnalyze

/-!
The summaries at the end of `run_analyze`.

`summarize` of the reassembler and of every analyzer, and `analyzerSummaries`, which puts those
together that the run has. The values of the details may have texts of the capture in them. The
names of the analyzers and of the details never have (`analyzerSummaries_named`).
-/

namespace Wirerust.RunSummaries

open Lib Wirerust.Analyzer Wirerust.Terminal

/-- The value of a detail. Arrays are only of texts, and at the top. -/
inductive Detail
  | value (v : Value)
  | texts (ts : List String)

abbrev Report := AnalysisSummary Detail

def count (n : Nat) : Detail := .value (.number n)

def counts (entries : List (String × Nat)) : Detail :=
  .value (.object (collect (entries.map fun e => (e.1, Value.number e.2))).entries)

/-- The names of the twenty largest counts. -/
def topNames (entries : List (String × Nat)) : List String :=
  ((entries.insertionSort countLe).take 20).map Prod.fst

end Wirerust.RunSummaries

/-! ## Each of them -/

namespace Wirerust.Engine

open Lib Wirerust.Analyzer Wirerust.RunSummaries

def summarize (s : TcpReassembler) : Checked Report := do
  let flowsCompleted ← checkedAdd 64 s.stats.flowsFin s.stats.flowsRst
  .ok {
    analyzerName := "TCP Reassembly"
    packetsAnalyzed := s.stats.packetsTcp
    detail := collect [
      ("packets_processed", count s.stats.packetsProcessed),
      ("packets_skipped_non_tcp", count s.stats.packetsSkippedNonTcp),
      ("flows_total", count s.stats.flowsTotal),
      ("flows_partial", count s.stats.flowsPartial),
      ("flows_fin", count s.stats.flowsFin),
      ("flows_rst", count s.stats.flowsRst),
      ("flows_completed", count flowsCompleted),
      ("flows_expired", count s.stats.flowsExpired),
      ("evictions", count s.stats.evictions),
      ("segments_inserted", count s.stats.segmentsInserted),
      ("segments_duplicates", count s.stats.segmentsDuplicates),
      ("segments_overlaps", count s.stats.segmentsOverlaps),
      ("segments_out_of_window", count s.stats.segmentsOutOfWindow),
      ("segments_segment_limit", count s.stats.segmentsSegmentLimit),
      ("segments_depth_exceeded", count s.stats.segmentsDepthExceeded),
      ("bytes_reassembled", count s.stats.bytesReassembled),
      ("dropped_findings", count s.stats.droppedFindings)] }

end Wirerust.Engine

namespace Wirerust.Pipelines

open Lib Wirerust.Analyzer Wirerust.RunSummaries

def DnsAnalyzer.summarize (s : DnsAnalyzer) : Checked Report := do
  let packetsAnalyzed ← checkedAdd 64 s.queryCount s.responseCount
  .ok {
    analyzerName := "DNS"
    packetsAnalyzed := packetsAnalyzed
    detail := collect [
      ("dns_queries", count s.queryCount),
      ("dns_responses", count s.responseCount)] }

end Wirerust.Pipelines

namespace Wirerust.Http

open Lib Wirerust.Analyzer Wirerust.RunSummaries

def summarize (s : HttpAnalyzer) : Report where
  analyzerName := "HTTP"
  packetsAnalyzed := s.transactions
  detail := collect [
    ("transactions", count s.transactions),
    ("methods", counts s.methods.entries),
    ("status_codes", counts (s.statusCodes.entries.map fun e => (toString e.1.toNat, e.2))),
    ("top_hosts", .texts (topNames s.hosts.entries)),
    ("recent_uris", .texts (s.uris.take 20)),
    ("user_agents", counts s.userAgents.entries),
    ("parse_errors", count s.parseErrors),
    ("non_http_flows", count s.nonHttpFlows),
    ("poisoned_bytes_skipped", count s.poisonedBytesSkipped),
    ("dropped_map_entries", count s.droppedMapEntries)]

end Wirerust.Http

namespace Wirerust.Tls

open Lib Wirerust.Analyzer Wirerust.RunSummaries

def summarize (s : TlsAnalyzer) : Report where
  analyzerName := "TLS"
  packetsAnalyzed := s.handshakesSeen
  detail := collect [
    ("top_snis", .texts (topNames s.sniCounts.entries)),
    ("ja3_hashes", counts s.ja3Counts.entries),
    ("ja3s_hashes", counts s.ja3sCounts.entries),
    ("tls_versions", counts (s.versionCounts.entries.map fun e => (toString e.1.toNat, e.2))),
    ("cipher_suites", counts s.cipherCounts.entries),
    ("parse_errors", count s.parseErrors),
    ("truncated_records", count s.truncatedRecords),
    ("handshake_reassembly_overflows", count s.handshakeReassemblyOverflows),
    ("buffer_saturation_drops", count s.bufferSaturationDrops),
    ("dropped_map_entries", count s.droppedMapEntries)]

end Wirerust.Tls

namespace Wirerust.Modbus

open Lib Wirerust.Analyzer Wirerust.RunSummaries

def summarize (s : ModbusAnalyzer) : Report where
  analyzerName := "modbus"
  packetsAnalyzed := s.totalPduCount
  detail := collect [
    ("pdu_count", count s.totalPduCount),
    ("write_count", count s.totalWriteCount),
    ("exception_count", count s.totalExceptionCount),
    ("parse_errors", count s.parseErrors),
    ("dropped_findings", count s.findings.dropped),
    ("dropped_transactions", count s.droppedTransactions),
    ("function_code_distribution", counts ((s.fnCodeCounts.entries.filter fun e => e.2 > 0).map
      fun e => (hexByte e.1, e.2)))]

end Wirerust.Modbus

namespace Wirerust.Arp

open Lib Wirerust.Analyzer Wirerust.RunSummaries

def summarize (s : ArpAnalyzer) : Report where
  analyzerName := "ARP"
  packetsAnalyzed := s.framesAnalyzed
  detail := collect [
    ("frames_analyzed", count s.framesAnalyzed),
    ("request_count", count s.requestCount),
    ("reply_count", count s.replyCount),
    ("other_opcode_count", count s.otherOpcodeCount),
    ("bindings_tracked", count s.bindings.size),
    ("spoof_findings", count s.spoofFindings),
    ("garp_findings", count s.garpFindings),
    ("storm_findings", count s.stormFindings),
    ("mismatch_findings", count s.mismatchFindings),
    ("malformed_findings", count s.malformedFindings),
    ("malformed_frames", count s.malformedFrames),
    ("bindings_evicted", count s.bindingsEvicted),
    ("storm_counters_evicted", count s.stormCountersEvicted)]

end Wirerust.Arp

/-! ## All of a run -/

namespace Wirerust.RunSummaries

open Lib Wirerust.Analyzer Wirerust.Engine Wirerust.RunAnalyze Wirerust.Terminal
  Wirerust.Wiring
open Wirerust.Pipelines hiding runAnalyze

/-- A summary without arrays. -/
def lift (a : AnalysisSummary Value) : Report where
  analyzerName := a.analyzerName
  packetsAnalyzed := a.packetsAnalyzed
  detail := collect (a.detail.entries.map fun e => (e.1, .value e.2))

/-- The summary of what may not be there. -/
def summaryOf {σ : Type} (summarize : σ → Checked Report) : Option σ → Checked (List Report)
  | none => .ok []
  | some s => do
    let report ← summarize s
    .ok [report]

def liftChecked (x : Checked (AnalysisSummary Value)) : Checked Report := do
  let a ← x
  .ok (lift a)

section Run

variable {libs : Libraries}

/-- The reassembler's summary has a count of the dispatcher. -/
def reassemblySummary (unclassifiedFlows : Nat) (reasm : TcpReassembler) : Checked Report := do
  let report ← Engine.summarize reasm
  .ok { report with
    detail := report.detail.insert "unclassified_flows" (count unclassifiedFlows) }

def analyzerSummaries (o : Options) (s : Analysis (analyzers libs)) : Checked (List Report) := do
  let d := s.dispatcher
  let reasm ← summaryOf (reassemblySummary d.unclassifiedFlows) s.reassembler
  let dns ← summaryOf DnsAnalyzer.summarize (if o.enableDns then some s.dnsAnalyzer else none)
  let http ← summaryOf (fun t => .ok (Http.summarize (stateOf (m := http libs.httparse) t))) d.http
  let tls ← summaryOf (fun t => .ok (Tls.summarize (stateOf (m := tls libs.tlsParser) t))) d.tls
  let modbus ← summaryOf (fun t => .ok (Modbus.summarize t)) d.modbus
  let dnp3 ← summaryOf (fun t => liftChecked (Dnp3.summarize t)) d.dnp3
  let enip ← summaryOf (fun t => .ok (lift (Enip.summarize (stateOf (m := enip) t)))) d.enip
  let iec104 ← summaryOf (fun t => liftChecked (Iec104.summarize (stateOf (m := iec104) t)))
    d.iec104
  let arp ← summaryOf (fun t => .ok (Arp.summarize t))
    (if o.enableArp then some s.arpAnalyzer else none)
  .ok (reasm ++ dns ++ http ++ tls ++ modbus ++ dnp3 ++ enip ++ iec104 ++ arp)

end Run

/-! ## Names -/

/-- Neither the name nor a key of a detail has a control character. -/
structure Named {Json : Type} (a : AnalysisSummary Json) : Prop where
  name : ControlFree a.analyzerName
  keys : ∀ e ∈ a.detail.entries, ControlFree e.1

theorem mem_collect {ν : Type} {entries : List (String × ν)} {e : String × ν}
    (h : e ∈ (collect entries).entries) : e ∈ entries := by
  suffices hfold : ∀ (rest : List (String × ν)) (m : SortedMap String ν),
      e ∈ (rest.foldl (fun m e => m.insert e.1 e.2) m).entries → e ∈ m.entries ∨ e ∈ rest by
    rcases hfold entries .empty h with hempty | hmem
    · cases hempty
    · exact hmem
  intro rest
  induction rest with
  | nil => exact fun m hm => .inl hm
  | cons e' rest ih =>
    intro m hm
    rcases ih (m.insert e'.1 e'.2) hm with hinsert | hrest
    · rcases (m.mem_insert e'.1 e'.2 e).mp hinsert with rfl | ⟨hold, -⟩
      · exact .inr List.mem_cons_self
      · exact .inl hold
    · exact .inr (List.mem_cons_of_mem _ hrest)

theorem named_collect {ν : Type} {name : String} {n : Nat} {entries : List (String × ν)}
    (hname : ControlFree name) (hkeys : ∀ key ∈ entries.map Prod.fst, ControlFree key) :
    Named ⟨name, n, collect entries⟩ where
  name := hname
  keys := fun e he => hkeys e.1 (List.mem_map_of_mem (mem_collect he))

theorem Named.lift {a : AnalysisSummary Value} (h : Named a) : Named (RunSummaries.lift a) := by
  refine named_collect h.name fun key hkey => ?_
  rw [List.map_map] at hkey
  obtain ⟨e, he, rfl⟩ := List.mem_map.mp hkey
  exact h.keys e he

/-- Those that come back. -/
def AllNamed (x : Checked (List Report)) : Prop :=
  ∀ reports, x = .ok reports → ∀ r ∈ reports, Named r

theorem summaryOf_named {σ : Type} {summarize : σ → Checked Report} {slot : Option σ}
    (h : ∀ s r, summarize s = .ok r → Named r) : AllNamed (summaryOf summarize slot) := by
  intro reports hreports r hr
  cases slot with
  | none =>
    cases hreports
    cases hr
  | some s =>
    obtain ⟨report, hreport, heq⟩ := bind_eq_ok.mp hreports
    cases heq
    rw [List.mem_singleton.mp hr]
    exact h s report hreport

theorem named_ok {a r : Report} (ha : Named a) (h : (.ok a : Checked Report) = .ok r) :
    Named r := by
  cases h
  exact ha

theorem named_liftChecked {x : Checked (AnalysisSummary Value)} (hx : ∀ a, x = .ok a → Named a)
    {r : Report} (h : liftChecked x = .ok r) : Named r := by
  obtain ⟨a, ha, h⟩ := bind_eq_ok.mp h
  exact named_ok (hx a ha).lift h

theorem reassemblySummary_named {unclassifiedFlows : Nat} {reasm : TcpReassembler} {r : Report}
    (h : reassemblySummary unclassifiedFlows reasm = .ok r) : Named r := by
  obtain ⟨report, hreport, h⟩ := bind_eq_ok.mp h
  obtain ⟨flowsCompleted, -, hreport⟩ := bind_eq_ok.mp hreport
  have hnamed : Named report := by
    refine named_ok (named_collect (by decide) ?_) hreport
    simp only [List.map_cons, List.map_nil]
    decide
  cases h
  refine ⟨hnamed.name, fun e he => ?_⟩
  rcases (SortedMap.mem_insert _ _ _ _).mp he with rfl | ⟨hold, -⟩
  · exact (by decide : ControlFree "unclassified_flows")
  · exact hnamed.keys e hold

theorem dns_named {s : DnsAnalyzer} {r : Report} (h : s.summarize = .ok r) : Named r := by
  obtain ⟨packetsAnalyzed, -, h⟩ := bind_eq_ok.mp h
  refine named_ok (named_collect (by decide) ?_) h
  simp only [List.map_cons, List.map_nil]
  decide

theorem http_named (s : Http.HttpAnalyzer) : Named (Http.summarize s) := by
  refine named_collect (by decide) ?_
  simp only [List.map_cons, List.map_nil]
  decide

theorem tls_named (s : Tls.TlsAnalyzer) : Named (Tls.summarize s) := by
  refine named_collect (by decide) ?_
  simp only [List.map_cons, List.map_nil]
  decide

theorem modbus_named (s : Modbus.ModbusAnalyzer) : Named (Modbus.summarize s) := by
  refine named_collect (by decide) ?_
  simp only [List.map_cons, List.map_nil]
  decide

theorem dnp3_named {s : Dnp3.Dnp3Analyzer} {a : AnalysisSummary Value}
    (h : Dnp3.summarize s = .ok a) : Named a := by
  obtain ⟨totalFrames, -, h⟩ := bind_eq_ok.mp h
  obtain ⟨parseErrors, -, h⟩ := bind_eq_ok.mp h
  cases h
  refine named_collect (by decide) ?_
  simp only [List.map_cons, List.map_nil]
  decide

theorem enip_named (s : Enip.EnipAnalyzer) : Named (Enip.summarize s) := by
  refine named_collect (by decide) ?_
  simp only [List.map_cons, List.map_nil]
  decide

theorem iec104_named {s : Iec104.Iec104Analyzer} {a : AnalysisSummary Value}
    (h : Iec104.summarize s = .ok a) : Named a := by
  obtain ⟨packetsAnalyzed, -, h⟩ := bind_eq_ok.mp h
  cases h
  refine named_collect (by decide) ?_
  simp only [List.map_cons, List.map_nil]
  decide

theorem arp_named (s : Arp.ArpAnalyzer) : Named (Arp.summarize s) := by
  refine named_collect (by decide) ?_
  simp only [List.map_cons, List.map_nil]
  decide

theorem analyzerSummaries_named {libs : Libraries} (o : Options) (s : Analysis (analyzers libs)) :
    AllNamed (analyzerSummaries o s) := by
  intro reports h r hr
  simp only [analyzerSummaries, bind_eq_ok] at h
  obtain ⟨reasm, hreasm, dns, hdns, http, hhttp, tls, htls, modbus, hmodbus, dnp3, hdnp3, enip,
    henip, iec104, hiec104, arp, harp, h⟩ := h
  cases h
  simp only [List.mem_append] at hr
  rcases hr with (((((((hr | hr) | hr) | hr) | hr) | hr) | hr) | hr) | hr
  · exact summaryOf_named (fun _ _ => reassemblySummary_named) reasm hreasm r hr
  · exact summaryOf_named (fun _ _ => dns_named) dns hdns r hr
  · exact summaryOf_named (fun t _ => named_ok (http_named _)) http hhttp r hr
  · exact summaryOf_named (fun t _ => named_ok (tls_named _)) tls htls r hr
  · exact summaryOf_named (fun t _ => named_ok (modbus_named t)) modbus hmodbus r hr
  · exact summaryOf_named (fun t _ => named_liftChecked fun _ => dnp3_named) dnp3 hdnp3 r hr
  · exact summaryOf_named (fun t _ => named_ok (enip_named _).lift) enip henip r hr
  · exact summaryOf_named (fun t _ => named_liftChecked fun _ => iec104_named) iec104 hiec104 r hr
  · exact summaryOf_named (fun t _ => named_ok (arp_named t)) arp harp r hr

end Wirerust.RunSummaries
