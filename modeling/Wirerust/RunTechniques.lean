import Wirerust.RunLoop
import Wirerust.Survival
import Wirerust.Techniques

/-!
A run of `analyze` reports techniques of the catalog only.

`Spotless` is the invariant of the loop: the findings so far, those that the reassembler keeps and
those that the six analyzers keep. The end of the run puts the three together.
-/

namespace Wirerust.RunTechniques

open Lib Wirerust.Analyzer Wirerust.Dispatcher Wirerust.Engine Wirerust.EngineSpec
  Wirerust.Moves Wirerust.Retiring Wirerust.RunAnalyze Wirerust.RunLoop Wirerust.Techniques
  Wirerust.Wiring
open Wirerust.Mitre (techniqueInfo)
open Wirerust.Pipelines hiding runAnalyze

section Loop

variable {libs : Libraries}

structure Spotless (s : Analysis (analyzers libs)) : Prop where
  found : Clean s.allFindings
  reassembler : ∀ reasm, s.reassembler = some reasm → Ready (view reasm) ∧ Clean reasm.findings
  streams : ∃ n, techniques.Hold n s.dispatcher

theorem handle_spotless {dispatcher dispatcher' : StreamDispatcher (analyzers libs)}
    (h : ∃ n, techniques.Hold n dispatcher) {events : List Event}
    (hs : run CoverageGaps.handle dispatcher events = .ok dispatcher') :
    ∃ n, techniques.Hold n dispatcher' := by
  obtain ⟨n, h⟩ := h
  exact ⟨_, ((handle_lasts (techniques_last libs)).run h events).2 dispatcher' hs⟩

theorem Spotless.reassemble {s s' : Analysis (analyzers libs)} (h : Spotless s) {ord : Orders}
    {parsed : ParsedPacket} {timestampSecs : UInt32}
    (hs : Pipelines.reassemble ord s parsed timestampSecs = .ok s') : Spotless s' := by
  rcases reassemble_eq_ok hs with ⟨-, rfl⟩ |
    ⟨reasm, reasm', dispatcher, hreasm, hpacket, hcalls, rfl⟩
  · exact h
  · obtain ⟨hready, hclean⟩ := h.reassembler reasm hreasm
    refine ⟨h.found, fun r hr => ?_, handle_spotless h.streams hcalls⟩
    cases hr
    exact ⟨((processPacket_moves ord.iter hready parsed timestampSecs).2 _ hpacket).2,
      processPacket_clean hready hclean hpacket⟩

theorem Spotless.analyzeDns {s : Analysis (analyzers libs)} (h : Spotless s) (flags : Flags)
    (parsed : ParsedPacket) : Spotless (Pipelines.analyzeDns flags s parsed) := by
  unfold Pipelines.analyzeDns
  split
  · have hnone : (s.dnsAnalyzer.analyze parsed).2 = [] := by
      unfold DnsAnalyzer.analyze
      split <;> rfl
    refine ⟨?_, h.reassembler, h.streams⟩
    simp only [hnone]
    exact h.found.append clean_nil
  · exact h

theorem Spotless.countGap {s : Analysis (analyzers libs)} (h : Spotless s) (flags : Flags)
    (parsed : ParsedPacket) : Spotless (Pipelines.countGap flags s parsed) := by
  unfold Pipelines.countGap
  split
  · split
    · exact ⟨h.found, h.reassembler, h.streams⟩
    · exact h
  · exact h

theorem spotless_keeps (flags : Flags) (ord : Orders) :
    Keeps flags ord fun _ (s : Analysis (analyzers libs)) => Spotless s where
  ip := fun _ s parsed _ _ s' h hs => by
    obtain ⟨summary, s₁, -, hreassemble, rfl⟩ := analyzeIp_eq_ok hs
    have hsummary : Spotless { s with summary := summary } :=
      ⟨h.found, h.reassembler, h.streams⟩
    exact ((hsummary.analyzeDns flags parsed).reassemble hreassemble).countGap flags parsed
  arp := fun _ s frame timestampSecs s' h hs => by
    unfold analyzeArp at hs
    split at hs
    · obtain ⟨r, hr, hs⟩ := bind_eq_ok.mp hs
      cases hs
      have hclean := (processArp_clean ord.tables s.arpAnalyzer frame timestampSecs).2 r hr
      exact ⟨h.found.append hclean, h.reassembler, h.streams⟩
    · cases hs
      exact h
  malformed := fun _ s packetLen h => by
    unfold analyzeMalformed
    split
    · exact ⟨h.found.append (recordMalformed_clean s.arpAnalyzer packetLen), h.reassembler,
        h.streams⟩
    · exact ⟨h.found, h.reassembler, h.streams⟩
  undecoded := fun _ s h => ⟨h.found, h.reassembler, h.streams⟩
  failed := fun _ s h => ⟨h.found, h.reassembler, h.streams⟩

end Loop

/-! ## The end -/

section Conclude

variable {libs : Libraries}

theorem findingsOf_clean {σ : Type} {findings : σ → List Finding} {slot : Option σ}
    (h : ∀ s, slot = some s → Clean (findings s)) : Clean (findingsOf findings slot) := by
  cases slot with
  | none => exact clean_nil
  | some s => exact h s rfl

theorem streamFindings_clean {n : Nat} {d : StreamDispatcher (analyzers libs)}
    (h : techniques.Hold n d) : Clean (streamFindings d) := by
  refine .append (.append (.append (.append (.append ?_ ?_) ?_) ?_) ?_) ?_
  · exact findingsOf_clean fun t ht => (h.http t ht).2
  · exact findingsOf_clean fun t ht => (h.tls t ht).2
  · exact findingsOf_clean fun s hs f hf => attributed_catalogued (h.modbus s hs f hf)
  · exact findingsOf_clean fun s hs => h.dnp3 s hs
  · exact findingsOf_clean fun t ht => (h.enip t ht).2
  · exact findingsOf_clean fun t ht => (h.iec104 t ht).2

theorem Spotless.finalizeStreams {ord : Orders} {s s' : Analysis (analyzers libs)}
    (h : Spotless s) (hs : RunAnalyze.finalizeStreams ord s = .ok s') :
    Clean s'.allFindings ∧ ∃ n, techniques.Hold n s'.dispatcher := by
  unfold RunAnalyze.finalizeStreams at hs
  cases hreasm : s.reassembler with
  | none =>
    rw [hreasm] at hs
    cases hs
    exact ⟨h.found, h.streams⟩
  | some reasm =>
    rw [hreasm] at hs
    obtain ⟨reasm', hfinal, hs⟩ := bind_eq_ok.mp hs
    obtain ⟨dispatcher, hcalls, hs⟩ := bind_eq_ok.mp hs
    cases hs
    exact ⟨h.found.append (finalize_clean (h.reassembler reasm hreasm).2 hfinal),
      handle_spotless h.streams hcalls⟩

theorem Spotless.conclude {ord : Orders} {s s' : Analysis (analyzers libs)} (h : Spotless s)
    (hs : RunAnalyze.conclude ord s = .ok s') : Clean s'.allFindings := by
  obtain ⟨s₁, hfinal, hs⟩ := bind_eq_ok.mp hs
  cases hs
  have hskipped : Spotless
      { s with summary := { s.summary with skippedPackets := s.totalDecodeErrors } } :=
    ⟨h.found, h.reassembler, h.streams⟩
  obtain ⟨hfound, n, hhold⟩ := hskipped.finalizeStreams hfinal
  exact hfound.append (streamFindings_clean hhold)

end Conclude

/-! ## All runs -/

theorem hold_start (o : Options) (libs : Libraries) : techniques.Hold 0 (o.setup libs).dispatcher
    where
  http := Survival.heldTable_given rfl clean_nil
  tls := Survival.heldTable_given rfl clean_nil
  modbus := fun s hs f hf => by
    obtain ⟨t, -, rfl⟩ := Option.map_eq_some_iff.mp hs
    cases hf
  dnp3 := fun s hs => by
    obtain ⟨t, -, rfl⟩ := Option.map_eq_some_iff.mp hs
    exact clean_nil
  enip := Survival.heldTable_given rfl clean_nil
  iec104 := Survival.heldTable_given rfl clean_nil

theorem findings_new {config : ReassemblyConfig} {reasm : TcpReassembler}
    (h : TcpReassembler.new config = .ok reasm) : reasm.findings = [] := by
  simp only [TcpReassembler.new, bind_eq_ok] at h
  obtain ⟨-, -, -, -, -, -, -, -, -, -, h⟩ := h
  cases h
  rfl

theorem spotless_start (o : Options) (libs : Libraries) {reassembler : Option TcpReassembler}
    (h : o.reassembler = .ok reassembler) : Spotless (o.start libs reassembler) where
  found := clean_nil
  reassembler := fun reasm hreasm => by
    obtain ⟨-, config, -, hnew⟩ := reassembler_eq_ok h hreasm
    refine ⟨(EngineSpec.ready_new hnew).1, ?_⟩
    rw [findings_new hnew]
    exact clean_nil
  streams := ⟨0, hold_start o libs⟩

theorem runAnalyze_clean {lib : Decoder.Etherparse} {libs : Libraries} {ord : Orders}
    {o : Options} {targets : List Target} {s : Analysis (analyzers libs)}
    (h : runAnalyze lib libs ord o targets = .ok (.ok s)) : Clean s.allFindings := by
  obtain ⟨-, -, reassembler, s₁, hreassembler, hrun, hconclude⟩ := runAnalyze_completed h
  have hloop := (spotless_keeps o.flags ord).run (spotless_start o libs hreassembler) hrun
  exact hloop.conclude hconclude

end Wirerust.RunTechniques
