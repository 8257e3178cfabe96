import Wirerust.AnalyzeLoop
import Wirerust.RunAnalyze

/-!
What holds of a run of `analyze` that has come to its report.

Such a run is one run of the packet loop over the files of all its targets, and then its end
(`runAnalyze_completed`). An invariant of the loop has five things to keep it, one for each arm
(`Keeps`); `Keeps.run` is the rule for it. The invariant may look at the IP packets so far.
-/

namespace Lib

/-- A machine that does the same wherever another one comes back. -/
theorem run_follows {ε σ ι : Type} {step low : σ → ι → Except ε σ}
    (h : ∀ s i s', step s i = .ok s' → low s i = .ok s') {s s' : σ} {l : List ι}
    (hrun : run step s l = .ok s') : run low s l = .ok s' := by
  obtain ⟨t, ht, rfl⟩ := run_simulates (R := fun _ s t => s = t)
    (fun _ s t i s' hst hs => ⟨s', hst ▸ h s i s' hs, rfl⟩) l rfl hrun
  exact ht

end Lib

namespace Wirerust.RunLoop

open Lib Wirerust.Analyzer Wirerust.AnalyzeLoop Wirerust.Decoder Wirerust.Dispatcher
  Wirerust.Engine Wirerust.RunAnalyze Wirerust.Wiring
open Wirerust.Pipelines hiding runAnalyze
open Wirerust.Capture (DataLink RawPacket)

/-! ## One loop -/

section Loop

variable {a : Analyzers} {lib : Etherparse} {flags : Flags} {ord : Orders}

/-- `decode_packet` on the packets that it comes back for. -/
def decodeOf (lib : Etherparse) : Decode := fun data datalink =>
  valueOr (.error "") (decodePacket lib data datalink)

/-- The files of all targets, one after the other. -/
def filesOf (targets : List Target) : List CaptureFile := targets.flatMap (valueOr [])

theorem onPacket_follows {datalink : DataLink} {s s' : Analysis a} {raw : RawPacket}
    (h : onPacket lib flags ord datalink s raw = .ok s') :
    analyzePacket (decodeOf lib) flags ord datalink s raw = .ok s' := by
  obtain ⟨decoded, hdecoded, h⟩ := bind_eq_ok.mp h
  have hvalue : decodeOf lib raw.data datalink = decoded := by
    rw [decodeOf, hdecoded]
    rfl
  unfold analyzePacket at h ⊢
  rw [hvalue]
  exact h

theorem onFile_follows {s s' : Analysis a} {file : CaptureFile}
    (h : onFile lib flags ord s file = .ok s') :
    analyzeFile (decodeOf lib) flags ord s file = .ok s' := by
  unfold analyzeFile
  cases file with
  | error e => exact h
  | ok source =>
    simp only [onFile] at h ⊢
    by_cases hempty : source.packets.isEmpty
    · rw [if_pos hempty] at h ⊢
      exact h
    · rw [if_neg hempty] at h ⊢
      exact run_follows (fun _ _ _ => onPacket_follows) h

/-- A loop that has not been left has gone through all files. -/
theorem onTargets_follows {s s' : Analysis a} {targets : List Target}
    (h : onTargets lib flags ord s targets = .ok (.ok s')) :
    (∀ target ∈ targets, ∃ files, target = .ok files) ∧
      run (analyzeFile (decodeOf lib) flags ord) s (filesOf targets) = .ok s' := by
  induction targets generalizing s with
  | nil =>
    cases h
    exact ⟨fun target htarget => (by cases htarget), rfl⟩
  | cons target targets ih =>
    cases target with
    | error message => cases h
    | ok files =>
      obtain ⟨s₁, hfiles, hrest⟩ := bind_eq_ok.mp h
      obtain ⟨hall, hrun⟩ := ih hrest
      refine ⟨fun t ht => ?_, ?_⟩
      · rcases List.mem_cons.mp ht with rfl | ht
        · exact ⟨files, rfl⟩
        · exact hall t ht
      · change run _ s (files ++ filesOf targets) = _
        rw [run_append, run_follows (fun _ _ _ => onFile_follows) hfiles]
        exact hrun

end Loop

section Completed

variable {lib : Etherparse} {libs : Libraries} {ord : Orders} {o : Options}
  {targets : List Target} {s : Analysis (analyzers libs)}

theorem runAnalyze_completed (h : runAnalyze lib libs ord o targets = .ok (.ok s)) :
    o.refusal = none ∧ (∀ target ∈ targets, ∃ files, target = .ok files) ∧
      ∃ reassembler s₁, o.reassembler = .ok reassembler ∧
        run (analyzeFile (decodeOf lib) o.flags ord) (o.start libs reassembler)
          (filesOf targets) = .ok s₁ ∧ conclude ord s₁ = .ok s := by
  unfold runAnalyze at h
  cases hrefusal : o.refusal with
  | some message =>
    rw [hrefusal] at h
    cases h
  | none =>
    rw [hrefusal] at h
    obtain ⟨reassembler, hreassembler, h⟩ := bind_eq_ok.mp h
    obtain ⟨r, hr, h⟩ := bind_eq_ok.mp h
    cases r with
    | error message => cases h
    | ok s₁ =>
      obtain ⟨s₂, hconclude, h⟩ := bind_eq_ok.mp h
      cases h
      obtain ⟨hall, hrun⟩ := onTargets_follows hr
      exact ⟨rfl, hall, reassembler, s₁, hreassembler, hrun, hconclude⟩

end Completed

/-- Where the reassembler comes from. -/
theorem reassembler_eq_ok {o : Options} {reassembler : Option TcpReassembler}
    (h : o.reassembler = .ok reassembler) {reasm : TcpReassembler}
    (hreasm : reassembler = some reasm) :
    o.streams = true ∧ ∃ config, o.reassemblyConfig = .ok config ∧
      TcpReassembler.new config = .ok reasm := by
  unfold Options.reassembler at h
  split at h
  · rename_i hstreams
    obtain ⟨config, hconfig, h⟩ := bind_eq_ok.mp h
    obtain ⟨new, hnew, h⟩ := bind_eq_ok.mp h
    cases h
    cases hreasm
    exact ⟨hstreams, config, hconfig, hnew⟩
  · cases h
    cases hreasm

/-! ## Invariants of the loop -/

section Invariant

variable {a : Analyzers} {decode : Decode} {flags : Flags} {ord : Orders}

theorem analyzeIp_eq_ok {s s' : Analysis a} {parsed : ParsedPacket} {packetLen : Nat}
    {timestampSecs : UInt32}
    (h : analyzeIp flags ord s parsed packetLen timestampSecs = .ok s') :
    ∃ summary s₁, s.summary.ingest parsed packetLen = .ok summary ∧
      reassemble ord (analyzeDns flags { s with summary := summary } parsed) parsed
        timestampSecs = .ok s₁ ∧ s' = countGap flags s₁ parsed := by
  obtain ⟨summary, hsummary, h⟩ := bind_eq_ok.mp h
  obtain ⟨s₁, hreassemble, h⟩ := bind_eq_ok.mp h
  cases h
  exact ⟨summary, s₁, hsummary, hreassemble, rfl⟩

/-- What the reassembler does with a packet, if there is one. -/
theorem reassemble_eq_ok {s s' : Analysis a} {parsed : ParsedPacket} {timestampSecs : UInt32}
    (h : reassemble ord s parsed timestampSecs = .ok s') :
    s.reassembler = none ∧ s' = s ∨ ∃ reasm reasm' dispatcher, s.reassembler = some reasm ∧
      processPacket ord.iter reasm parsed timestampSecs = .ok reasm' ∧
      run CoverageGaps.handle s.dispatcher (reasm'.events.drop reasm.events.length) =
        .ok dispatcher ∧
      s' = { s with reassembler := some reasm', dispatcher := dispatcher } := by
  unfold reassemble at h
  cases hreasm : s.reassembler with
  | none =>
    rw [hreasm] at h
    cases h
    exact .inl ⟨rfl, rfl⟩
  | some reasm =>
    rw [hreasm] at h
    obtain ⟨reasm', hpacket, h⟩ := bind_eq_ok.mp h
    obtain ⟨dispatcher, hcalls, h⟩ := bind_eq_ok.mp h
    cases h
    exact .inr ⟨reasm, reasm', dispatcher, rfl, hpacket, hcalls, rfl⟩

/-- Every arm of the loop keeps `P`. -/
structure Keeps (flags : Flags) (ord : Orders) (P : List Alone.Input → Analysis a → Prop) :
    Prop where
  ip : ∀ pre s parsed packetLen timestampSecs s', P pre s →
    analyzeIp flags ord s parsed packetLen timestampSecs = .ok s' →
    P (pre ++ [(parsed, timestampSecs)]) s'
  arp : ∀ pre s frame timestampSecs s', P pre s →
    analyzeArp flags ord s frame timestampSecs = .ok s' → P pre s'
  malformed : ∀ pre s packetLen, P pre s → P pre (analyzeMalformed flags s packetLen)
  undecoded : ∀ pre s, P pre s → P pre { s with totalDecodeErrors := bump64 s.totalDecodeErrors }
  failed : ∀ pre s, P pre s → P pre { s with anyError := true }

variable {P : List Alone.Input → Analysis a → Prop}

theorem Keeps.packet (hP : Keeps flags ord P) {pre : List Alone.Input} {s s' : Analysis a}
    (h : P pre s) {datalink : DataLink} {raw : RawPacket}
    (hs : analyzePacket decode flags ord datalink s raw = .ok s') :
    P (pre ++ (ipPacket decode datalink raw).toList) s' := by
  unfold analyzePacket at hs
  unfold ipPacket
  cases hdecode : decode raw.data datalink with
  | ok frame =>
    rw [hdecode] at hs
    cases frame with
    | ip parsed packetLen => exact hP.ip pre s parsed packetLen raw.timestampSecs s' h hs
    | arp frame =>
      rw [Option.toList_none, List.append_nil]
      exact hP.arp pre s frame raw.timestampSecs s' h hs
  | error e =>
    rw [hdecode] at hs
    rw [Option.toList_none, List.append_nil]
    simp only at hs
    split at hs
    · cases hs
      exact hP.malformed pre s raw.data.length h
    · cases hs
      exact hP.undecoded pre s h

theorem Keeps.file (hP : Keeps flags ord P) {pre : List Alone.Input} {s s' : Analysis a}
    (h : P pre s) {file : CaptureFile} (hs : analyzeFile decode flags ord s file = .ok s') :
    P (pre ++ ipPacketsOf decode file) s' := by
  unfold analyzeFile at hs
  unfold ipPacketsOf
  cases file with
  | error e =>
    cases hs
    rw [List.append_nil]
    exact hP.failed pre s h
  | ok source =>
    simp only at hs ⊢
    split at hs
    · rename_i hempty
      cases hs
      rw [List.isEmpty_iff.mp hempty, List.filterMap_nil, List.append_nil]
      exact h
    · refine run_keeps_seen (I := fun done s =>
        P (pre ++ done.filterMap (ipPacket decode source.datalink)) s)
        (fun done s raw s' hI hstep => ?_) ?_ hs
      · have hpacket := hP.packet hI hstep
        rw [List.append_assoc] at hpacket
        rw [List.filterMap_append, List.filterMap_cons, List.filterMap_nil]
        cases hraw : ipPacket decode source.datalink raw with
        | none =>
          rw [hraw] at hpacket
          exact hpacket
        | some input =>
          rw [hraw] at hpacket
          exact hpacket
      · rw [List.filterMap_nil, List.append_nil]
        exact h

/-- The rule of the loop. -/
theorem Keeps.run (hP : Keeps flags ord P) {s s' : Analysis a} (h : P [] s)
    {files : List CaptureFile} (hs : run (analyzeFile decode flags ord) s files = .ok s') :
    P (ipPackets decode files) s' := by
  refine run_keeps_seen (I := fun done s => P (ipPackets decode done) s)
    (fun done s file s' hI hstep => ?_) h hs
  have hfile := hP.file hI hstep
  rw [ipPackets, List.flatMap_append, List.flatMap_singleton]
  exact hfile

/-- An invariant of the reassembler and the dispatcher. -/
theorem keeps_of_streams
    (hsame : ∀ pre s s', SameStreams s s' → P pre s → P pre s')
    (hreassemble : ∀ pre s parsed timestampSecs s', P pre s →
      reassemble ord s parsed timestampSecs = .ok s' → P (pre ++ [(parsed, timestampSecs)]) s') :
    Keeps flags ord P where
  ip := fun pre s parsed packetLen timestampSecs s' h hs => by
    obtain ⟨summary, s₁, -, hstream, rfl⟩ := analyzeIp_eq_ok hs
    have hsummary : P pre { s with summary := summary } := hsame pre s _ ⟨rfl, rfl⟩ h
    have hdns := hsame pre _ _ (analyzeDns_streams flags _ parsed) hsummary
    exact hsame _ s₁ _ (countGap_streams flags s₁ parsed)
      (hreassemble pre _ parsed timestampSecs s₁ hdns hstream)
  arp := fun pre s frame timestampSecs s' h hs => hsame pre s s' (analyzeArp_streams hs) h
  malformed := fun pre s packetLen h =>
    hsame pre s _ (analyzeMalformed_streams flags s packetLen) h
  undecoded := fun pre s h => hsame pre s _ ⟨rfl, rfl⟩ h
  failed := fun pre s h => hsame pre s _ ⟨rfl, rfl⟩ h

end Invariant

/-! ## The reassembler and the dispatcher -/

/-- What the two have been through when there is a report: the reassembler all IP packets and the
end, the dispatcher all calls of the reassembler. -/
structure Streamed {libs : Libraries} (ord : Orders) (o : Options) (inputs : List Alone.Input)
    (s : Analysis (analyzers libs)) (reasm : TcpReassembler) : Prop where
  received : ∃ config s₀ s₁, o.reassemblyConfig = .ok config ∧
    TcpReassembler.new config = .ok s₀ ∧ run (Alone.receive ord.iter) s₀ inputs = .ok s₁ ∧
    finalize ord.iter s₁ = .ok reasm
  handled : run CoverageGaps.handle (o.setup libs).dispatcher reasm.events = .ok s.dispatcher

theorem without_keeps {a : Analyzers} (flags : Flags) (ord : Orders) (d : StreamDispatcher a) :
    Keeps flags ord fun _ s => s.reassembler = none ∧ s.dispatcher = d :=
  keeps_of_streams (fun _ _ _ hsame h => ⟨hsame.1.trans h.1, hsame.2.trans h.2⟩)
    fun _ _ _ _ _ h hs => by
      rcases reassemble_eq_ok hs with ⟨-, rfl⟩ | ⟨reasm, -, -, hreasm, -⟩
      · exact h
      · rw [h.1] at hreasm
        cases hreasm

theorem conclude_eq_ok {libs : Libraries} {ord : Orders} {s s' : Analysis (analyzers libs)}
    (h : conclude ord s = .ok s') :
    s.reassembler = none ∧ s'.reassembler = none ∧ s'.dispatcher = s.dispatcher ∨
      ∃ reasm reasm', s.reassembler = some reasm ∧ finalize ord.iter reasm = .ok reasm' ∧
        s'.reassembler = some reasm' ∧
        run CoverageGaps.handle s.dispatcher (reasm'.events.drop reasm.events.length) =
          .ok s'.dispatcher := by
  obtain ⟨s₁, hfinal, h⟩ := bind_eq_ok.mp h
  cases h
  unfold finalizeStreams at hfinal
  cases hreasm : s.reassembler with
  | none =>
    simp only [hreasm] at hfinal
    cases hfinal
    exact .inl ⟨rfl, rfl, rfl⟩
  | some reasm =>
    simp only [hreasm] at hfinal
    obtain ⟨reasm', hreasm', hfinal⟩ := bind_eq_ok.mp hfinal
    obtain ⟨dispatcher, hcalls, hfinal⟩ := bind_eq_ok.mp hfinal
    cases hfinal
    exact .inr ⟨reasm, reasm', rfl, hreasm', rfl, hcalls⟩

theorem runAnalyze_streamed {lib : Etherparse} {libs : Libraries} {ord : Orders} {o : Options}
    {targets : List Target} {s : Analysis (analyzers libs)}
    (h : runAnalyze lib libs ord o targets = .ok (.ok s)) :
    (o.streams = false ∧ s.reassembler = none ∧ s.dispatcher = (o.setup libs).dispatcher) ∨
      ∃ reasm, o.streams = true ∧ s.reassembler = some reasm ∧
        Streamed ord o (ipPackets (decodeOf lib) (filesOf targets)) s reasm := by
  obtain ⟨-, -, reassembler, s₁, hreassembler, hrun, hconclude⟩ := runAnalyze_completed h
  cases hnew : reassembler with
  | none =>
    subst hnew
    have hstreams : o.streams = false := by
      cases hstreams : o.streams with
      | false => rfl
      | true =>
        rw [Options.reassembler, if_pos hstreams] at hreassembler
        obtain ⟨config, -, hreassembler⟩ := bind_eq_ok.mp hreassembler
        obtain ⟨new, -, hreassembler⟩ := bind_eq_ok.mp hreassembler
        cases hreassembler
    obtain ⟨hnone, hsame⟩ := (without_keeps o.flags ord (o.setup libs).dispatcher).run
      ⟨rfl, rfl⟩ hrun
    rcases conclude_eq_ok hconclude with ⟨-, hnone', hsame'⟩ | ⟨reasm, -, hreasm, -⟩
    · exact .inl ⟨hstreams, hnone', hsame'.trans hsame⟩
    · rw [hnone] at hreasm
      cases hreasm
  | some s₀ =>
    subst hnew
    obtain ⟨hstreams, config, hconfig, hnew⟩ := reassembler_eq_ok hreassembler rfl
    obtain ⟨s₀', reasm, hnew', hreasm, hreceive, hhandle⟩ := (analyze_feeds hnew hrun).fed
    have hready := ((Alone.receive_run_counted ord.iter hnew' _).2 reasm hreceive).ready
    rcases conclude_eq_ok hconclude with
      ⟨hnone, -⟩ | ⟨reasm₁, reasm', hreasm₁, hfinal, hsome, hcalls⟩
    · rw [hreasm] at hnone
      cases hnone
    · rw [hreasm] at hreasm₁
      cases hreasm₁
      obtain ⟨new, hevents, -⟩ := (Volume.finalize_adds ord.iter hready).apply hfinal
      rw [hevents, List.drop_left] at hcalls
      refine .inr ⟨reasm', hstreams, hsome, ⟨config, s₀', reasm, hconfig, hnew', hreceive, hfinal⟩,
        ?_⟩
      rw [hevents, run_append, hhandle]
      exact hcalls

end Wirerust.RunLoop
