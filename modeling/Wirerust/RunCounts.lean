import Wirerust.Reporter.Gaps
import Wirerust.RunEnd
import Wirerust.RunSummaries

/-!
The sums that are made for the report.

The summaries add counters that saturate on their own. No sum leaves its 64 bits: a packet creates
at most one flow and is counted by the DNS analyzer at most once, and the flows that are still open
are none (`runAnalyze_summaries`). The section on coverage gaps adds nothing up, as the counts of
TCP and of UDP have no port in common (`runAnalyze_gaps`).
-/

namespace Wirerust.RunCounts

open Lib Wirerust.Accounting Wirerust.Alone Wirerust.AnalyzeLoop Wirerust.Analyzer
  Wirerust.Dispatcher Wirerust.Engine Wirerust.EngineSpec Wirerust.Flow Wirerust.Gaps Wirerust.Moves
  Wirerust.Retiring Wirerust.RunAnalyze Wirerust.RunEnd Wirerust.RunLoop Wirerust.RunSummaries
  Wirerust.Segment Wirerust.Wiring
open Wirerust.Pipelines hiding runAnalyze

/-! ## Flows -/

def isClose : Event → Bool
  | .onFlowClose _ _ => true
  | _ => false

def created (events : List Event) : Nat := events.countP isCreation

def closes (events : List Event) : Nat := events.countP isClose

theorem created_append (events new : List Event) :
    created (events ++ new) = created events + created new := List.countP_append

theorem closes_append (events new : List Event) :
    closes (events ++ new) = closes events + closes new := List.countP_append

theorem countP_none {p : Event → Bool} {events : List Event} (h : ∀ e ∈ events, p e = false) :
    events.countP p = 0 := by
  refine List.countP_eq_zero.mpr fun e he => ?_
  rw [h e he]
  exact Bool.false_ne_true

theorem created_none {events : List Event} (h : ∀ e ∈ events, isCreation e = false) :
    created events = 0 := countP_none h

theorem closes_none {events : List Event} (h : ∀ e ∈ events, isClose e = false) :
    closes events = 0 := countP_none h

theorem created_closeEvents (key : FlowKey) (f : TcpFlow) (reason : CloseReason)
    (client server : List (Chunk UInt8)) :
    created (closeEvents key f reason client server) = 0 := by
  refine created_none (List.forall_mem_append.mpr ⟨?_, fun e he => ?_⟩)
  · exact forall_drainEvents (P := fun e => isCreation e = false) (fun _ _ _ _ => rfl) f client
      server
  · rw [List.mem_singleton.mp he]
    rfl

theorem closes_closeEvents (key : FlowKey) (f : TcpFlow) (reason : CloseReason)
    (client server : List (Chunk UInt8)) :
    closes (closeEvents key f reason client server) = 1 := by
  have hdrain : closes (drainEvents key f client server) = 0 :=
    closes_none (forall_drainEvents (P := fun e => isClose e = false) (fun _ _ _ _ => rfl) f client
      server)
  rw [closeEvents, closes_append, hdrain]
  rfl

/-- Every close has been counted at most once, and every flow that was closed or is open was
created. -/
structure Counted (v : View) : Prop where
  once : retired v ≤ closes v.events
  flows : closes v.events + v.flows.size ≤ created v.events

theorem bump_le_succ (n : Nat) : bump n ≤ n + 1 := by
  unfold bump saturatingInc
  omega

theorem retired_countClose_le (v : View) (reason : CloseReason) :
    retired (countClose v reason) ≤ retired v + 1 := by
  unfold retired
  cases reason with
  | fin =>
    have := bump_le_succ v.flowsFin
    simp only [countClose]
    omega
  | rst =>
    have := bump_le_succ v.flowsRst
    simp only [countClose]
    omega
  | timeout =>
    have := bump_le_succ v.flowsExpired
    simp only [countClose]
    omega
  | memoryPressure =>
    have := bump_le_succ v.evictions
    simp only [countClose]
    omega

theorem Counted.closed {v : View} (h : Counted v) {key : FlowKey} {f : TcpFlow}
    (hf : v.flows.get? key = some f) (g : TcpFlow) (reason : CloseReason)
    (client server : List (Chunk UInt8)) :
    Counted (closed v key g reason client server) ∧
      Counted (countClose (closed v key g reason client server) reason) := by
  have hsize := SortedMap.size_erase_of_some _ hf
  have hcloses : closes (v.events ++ closeEvents key g reason client server) =
      closes v.events + 1 := by
    rw [closes_append, closes_closeEvents]
  have hcreated : closes (v.events ++ closeEvents key g reason client server) +
      (v.flows.erase key).size ≤ created (v.events ++ closeEvents key g reason client server) := by
    rw [hcloses, created_append, created_closeEvents]
    have := h.flows
    omega
  refine ⟨⟨?_, hcreated⟩, ?_, ?_⟩
  · exact Nat.le_trans h.once (hcloses ▸ Nat.le_succ _)
  · refine Nat.le_trans (retired_countClose_le _ reason) ?_
    rw [countClose_events]
    exact hcloses ▸ Nat.succ_le_succ h.once
  · rw [countClose_events, countClose_flows]
    exact hcreated

theorem Counted.retire {counted : Bool} {v v' : View} {key : FlowKey} (h : Counted v)
    (hret : Retire counted v key v') : Counted v' := by
  cases hret with
  | mk f reason client server hf hdrain hfin =>
    obtain ⟨hclosed, hcounted⟩ := h.closed hf f reason client server
    split
    · exact hcounted
    · exact hclosed

/-- Events that are neither closes nor creations, and as many flows as before. -/
theorem Counted.quiet {v v' : View} (h : Counted v)
    (hretired : retired v' = retired v) (hsize : v'.flows.size = v.flows.size)
    {new : List Event} (hevents : v'.events = v.events ++ new)
    (hcloses : ∀ e ∈ new, isClose e = false) (hcreated : ∀ e ∈ new, isCreation e = false) :
    Counted v' := by
  have hc : closes v'.events = closes v.events := by
    rw [hevents, closes_append, closes_none hcloses, Nat.add_zero]
  have hn : created v'.events = created v.events := by
    rw [hevents, created_append, created_none hcreated, Nat.add_zero]
  exact ⟨by rw [hretired, hc]; exact h.once, by rw [hc, hn, hsize]; exact h.flows⟩

theorem Counted.move {v v' : View} (h : Counted v) (hm : Move v v') : Counted v' := by
  cases hm with
  | create key timestamp index hnone hroom =>
    have hsize := SortedMap.size_insert_of_none v.flows
      { TcpFlow.new key timestamp with lastActivityIndex := index } hnone
    have hcloses : closes (v.events ++ [.flowCreated key]) = closes v.events := closes_append _ _
    have hcreated : created (v.events ++ [.flowCreated key]) =
        created v.events + 1 := created_append _ _
    refine ⟨h.once.trans_eq hcloses.symm, ?_⟩
    rw [hcloses, hcreated, hsize]
    exact Nat.succ_le_succ h.flows
  | touch key f timestamp index hf =>
    exact h.quiet rfl (SortedMap.size_insert_of_some _ _ hf) (List.append_nil _).symm
      (fun e he => by cases he) (fun e he => by cases he)
  | packet f f' p dir chunks timestamp hf hopen hrst hacc =>
    exact h.quiet rfl (SortedMap.size_insert_of_some _ _ hf) rfl
      (List.forall_mem_cons.mpr ⟨rfl, forall_dataEvents (fun _ _ _ _ => rfl) dir timestamp chunks⟩)
      (List.forall_mem_cons.mpr ⟨rfl, forall_dataEvents (fun _ _ _ _ => rfl) dir timestamp chunks⟩)
  | reset f p client server hf hopen hrst hdrain =>
    have hpacket : Counted { v with events := v.events ++ [p.event] } :=
      h.quiet rfl rfl rfl (fun e he => by rw [List.mem_singleton.mp he]; rfl)
        (fun e he => by rw [List.mem_singleton.mp he]; rfl)
    exact (hpacket.closed hf _ .rst client server).2
  | retire _ key hret => exact h.retire hret

theorem Counted.path {v v' : View} (h : Counted v) (hp : Path v v') : Counted v' := by
  induction hp with
  | refl => exact h
  | tail _ hm ih => exact ih.move hm

theorem Counted.retires {counted : Bool} {v v' : View} (h : Counted v)
    (hr : Retires counted v v') : Counted v' := by
  induction hr with
  | refl => exact h
  | tail _ hret ih =>
    obtain ⟨key, hret⟩ := hret
    exact ih.retire hret

/-- A packet creates one flow at most. -/
theorem created_packet {ord : IterOrder} {s s' : TcpReassembler} (hr : Ready (view s))
    {packet : ParsedPacket} {timestamp : UInt32}
    (h : processPacket ord s packet timestamp = .ok s') :
    created s'.events ≤ created s.events + 1 := by
  have hdismissed : ∀ {t t' : TcpReassembler} {new : List Event}, Dismissed t t' new →
      created t'.events = created t.events := by
    intro t t' new hdis
    rw [hdis.events, created_append, created_none hdis.noneCreated, Nat.add_zero]
  rcases processPacket_eq_ok hr h with ⟨-, -, new, hdis, -⟩ |
    ⟨key, tcp, s₁, s₂, s₃, f, out, swept, evicted, -, hh, -⟩
  · rw [hdismissed hdis]
    exact Nat.le_succ _
  · have hgreets : created s₂.events ≤ created s₁.events + 1 := by
      cases hh.greets with
      | created index hnone hflows hevents => exact Nat.le_of_eq (hevents ▸ created_append _ _)
      | known g index hg hflows hevents => exact hevents ▸ Nat.le_succ _
    have hacts : created s₃.events = created s₂.events := by
      have hquiet : ∀ e ∈ (flowPacket packet tcp).event :: out.calls, isCreation e = false :=
        List.forall_mem_cons.mpr
          ⟨rfl, forall_packetAlone (fun _ _ _ _ _ => rfl) (fun _ _ => rfl) hh.alone⟩
      rw [hh.acts.events, created_append, created_none hquiet, Nat.add_zero]
    rw [hdismissed hh.after, hacts, ← hdismissed hh.before]
    exact hgreets

/-! ## A run of the reassembler -/

theorem receive_counted {ord : IterOrder} {config : ReassemblyConfig} {s₀ s : TcpReassembler}
    (hnew : TcpReassembler.new config = .ok s₀) {inputs : List Alone.Input}
    (hs : run (receive ord) s₀ inputs = .ok s) :
    (Ready (view s) ∧ s.finalized = false) ∧ Counted (view s) ∧
      created s.events ≤ inputs.length := by
  have hview := (new_eq_ok hnew).2
  have hevents : s₀.events = [] := congrArg View.events hview
  refine run_keeps_seen (I := fun pre s => (Ready (view s) ∧ s.finalized = false) ∧
    Counted (view s) ∧ created s.events ≤ pre.length) (fun pre s i s' hI hstep => ?_) ?_ hs
  · obtain ⟨⟨hready, hfin⟩, hcounted, hcreated⟩ := hI
    obtain ⟨hpath, hready'⟩ := (processPacket_moves ord hready i.1 i.2).2 s' hstep
    refine ⟨⟨hready', (Retiring.path_finalized hpath).trans hfin⟩, hcounted.path hpath, ?_⟩
    rw [List.length_append]
    exact Nat.le_trans (created_packet hready hstep) (Nat.succ_le_succ hcreated)
  · refine ⟨⟨(ready_new hnew).1, congrArg View.finalized hview⟩, ?_, ?_⟩
    · rw [hview]
      exact ⟨Nat.le_refl 0, Nat.le_refl 0⟩
    · rw [hevents]
      exact Nat.le_refl 0

theorem created_retires {counted : Bool} {v v' : View} (h : Retires counted v v') :
    created v'.events = created v.events := by
  induction h with
  | refl => rfl
  | tail _ hret ih =>
    obtain ⟨key, hret⟩ := hret
    obtain ⟨f, reason, client, server, hresult⟩ := hret.result
    rw [hresult.events, created_append, created_closeEvents, Nat.add_zero]
    exact ih

/-- No flow is closed or counted that is not one of the packets. -/
theorem streamed_counted {libs : Libraries} {ord : Orders} {o : Options}
    {inputs : List Alone.Input} {s : Analysis (analyzers libs)} {reasm : TcpReassembler}
    (h : Streamed ord o inputs s reasm) :
    retired (view reasm) ≤ closes reasm.events ∧ closes reasm.events ≤ inputs.length := by
  obtain ⟨config, s₀, s₁, -, hnew, hreceive, hfinal⟩ := h.received
  obtain ⟨⟨hready, hfin⟩, hcounted, hcreated⟩ := receive_counted hnew hreceive
  obtain ⟨hretires, -⟩ := (finalize_closes ord.iter hready.wf hfin).apply hfinal
  have hfinalized : Counted { view s₁ with finalized := true } := ⟨hcounted.once, hcounted.flows⟩
  have hend := hfinalized.retires hretires
  have hsame : created reasm.events = created s₁.events := created_retires hretires
  have hflows : closes reasm.events + reasm.flows.size ≤ created reasm.events := hend.flows
  exact ⟨hend.once, by omega⟩

/-! ## Single packets -/

theorem analyze_count (s : DnsAnalyzer) (packet : ParsedPacket) :
    (s.analyze packet).1.queryCount + (s.analyze packet).1.responseCount ≤
      s.queryCount + s.responseCount + 1 := by
  unfold DnsAnalyzer.analyze bump64 saturatingInc
  split
  · dsimp only
    omega
  · dsimp only
    omega

section Loop

variable {a : Analyzers}

/-- What is counted of single packets is the same. -/
structure SameCounts (s s' : Analysis a) : Prop where
  dns : s'.dnsAnalyzer = s.dnsAnalyzer
  udp : s'.udpUnclassifiedCounts = s.udpUnclassifiedCounts

theorem reassemble_counts {ord : Orders} {s s' : Analysis a} {parsed : ParsedPacket}
    {timestampSecs : UInt32} (h : reassemble ord s parsed timestampSecs = .ok s') :
    SameCounts s s' := by
  rcases reassemble_eq_ok h with ⟨-, rfl⟩ | ⟨reasm, reasm', dispatcher, -, -, -, rfl⟩
  · exact ⟨rfl, rfl⟩
  · exact ⟨rfl, rfl⟩

theorem analyzeArp_counts {flags : Flags} {ord : Orders} {s s' : Analysis a} {frame : Arp.ArpFrame}
    {timestampSecs : UInt32} (h : analyzeArp flags ord s frame timestampSecs = .ok s') :
    SameCounts s s' := by
  unfold analyzeArp at h
  split at h
  · obtain ⟨r, -, h⟩ := bind_eq_ok.mp h
    cases h
    exact ⟨rfl, rfl⟩
  · cases h
    exact ⟨rfl, rfl⟩

theorem analyzeMalformed_counts (flags : Flags) (s : Analysis a) (packetLen : Nat) :
    SameCounts s (analyzeMalformed flags s packetLen) := by
  unfold analyzeMalformed
  split
  · exact ⟨rfl, rfl⟩
  · exact ⟨rfl, rfl⟩

theorem countGap_dns (flags : Flags) (s : Analysis a) (parsed : ParsedPacket) :
    (countGap flags s parsed).dnsAnalyzer = s.dnsAnalyzer := by
  unfold countGap
  split
  · split
    · rfl
    · rfl
  · rfl

theorem analyzeDns_udp (flags : Flags) (s : Analysis a) (parsed : ParsedPacket) :
    (analyzeDns flags s parsed).udpUnclassifiedCounts = s.udpUnclassifiedCounts := by
  unfold analyzeDns
  split
  · rfl
  · rfl

theorem SameCounts.countGap {s s' : Analysis a} (h : SameCounts s s') (flags : Flags)
    (parsed : ParsedPacket) :
    SameCounts (countGap flags s parsed) (Pipelines.countGap flags s' parsed) := by
  refine ⟨by rw [countGap_dns, countGap_dns, h.dns], ?_⟩
  unfold Pipelines.countGap
  split
  · split
    · simp only [h.udp]
    · exact h.udp
  · exact h.udp

/-- An invariant of what is counted of single packets. -/
theorem keeps_of_counts {flags : Flags} {ord : Orders} {P : List Alone.Input → Analysis a → Prop}
    (hsame : ∀ pre s s', SameCounts s s' → P pre s → P pre s')
    (hcount : ∀ pre s parsed timestampSecs, P pre s →
      P (pre ++ [(parsed, timestampSecs)]) (countGap flags (analyzeDns flags s parsed) parsed)) :
    Keeps flags ord P where
  ip := fun pre s parsed packetLen timestampSecs s' h hs => by
    obtain ⟨summary, s₁, -, hreassemble, rfl⟩ := analyzeIp_eq_ok hs
    have hsummary : P pre { s with summary := summary } := hsame pre s _ ⟨rfl, rfl⟩ h
    exact hsame _ _ _ ((reassemble_counts hreassemble).countGap flags parsed)
      (hcount pre _ parsed timestampSecs hsummary)
  arp := fun pre s frame timestampSecs s' h hs => hsame pre s s' (analyzeArp_counts hs) h
  malformed := fun pre s packetLen h =>
    hsame pre s _ (analyzeMalformed_counts flags s packetLen) h
  undecoded := fun pre s h => hsame pre s _ ⟨rfl, rfl⟩ h
  failed := fun pre s h => hsame pre s _ ⟨rfl, rfl⟩ h

def dnsTotal (s : Analysis a) : Nat := s.dnsAnalyzer.queryCount + s.dnsAnalyzer.responseCount

theorem dnsTotal_analyzeDns (flags : Flags) (s : Analysis a) (parsed : ParsedPacket) :
    dnsTotal (analyzeDns flags s parsed) ≤ dnsTotal s + 1 := by
  unfold analyzeDns
  split
  · exact analyze_count s.dnsAnalyzer parsed
  · exact Nat.le_succ _

theorem dns_keeps (flags : Flags) (ord : Orders) :
    Keeps flags ord fun pre (s : Analysis a) => dnsTotal s ≤ pre.length :=
  keeps_of_counts (fun pre s s' hsame h => by rw [dnsTotal, hsame.dns]; exact h)
    fun pre s parsed timestampSecs h => by
      rw [dnsTotal, countGap_dns, List.length_append]
      exact Nat.le_trans (dnsTotal_analyzeDns flags s parsed) (Nat.succ_le_succ h)

end Loop

/-! ## The summaries -/

theorem summaryOf_returns {σ : Type} (summarize : σ → Checked Report) (slot : Option σ)
    (h : ∀ s, slot = some s → ∃ r, summarize s = .ok r) :
    ∃ reports, summaryOf summarize slot = .ok reports := by
  cases slot with
  | none => exact ⟨[], rfl⟩
  | some s =>
    obtain ⟨r, hr⟩ := h s rfl
    exact ⟨[r], bind_eq_ok.mpr ⟨r, hr, rfl⟩⟩

theorem total_nil {κ ν : Type} [LinearOrder κ] {field : ν → Nat} {m : SortedMap κ ν}
    (h : m.entries = []) : total field m = 0 := by
  rw [total, SortedMap.sumBy, h]
  rfl

section Summaries

variable {libs : Libraries}

/-- Every sum is small, and no flow is left at the two analyzers that add up their flows. -/
structure Summable (s : Analysis (analyzers libs)) : Prop where
  reassembler : ∀ reasm, s.reassembler = some reasm →
    reasm.stats.flowsFin + reasm.stats.flowsRst < 2 ^ 64
  dns : dnsTotal s < 2 ^ 64
  forgotten : Forgotten s.dispatcher

theorem Summable.returns {s : Analysis (analyzers libs)} (h : Summable s) (o : Options) :
    ∃ reports, analyzerSummaries o s = .ok reports := by
  obtain ⟨reasm, hreasm⟩ := summaryOf_returns
    (reassemblySummary s.dispatcher.unclassifiedFlows) s.reassembler
    fun r hr => ⟨_, bind_eq_ok.mpr
      ⟨_, bind_eq_ok.mpr ⟨_, checkedAdd_of_lt (h.reassembler r hr), rfl⟩, rfl⟩⟩
  obtain ⟨dns, hdns⟩ := summaryOf_returns DnsAnalyzer.summarize
    (if o.enableDns then some s.dnsAnalyzer else none) fun t ht => by
      split at ht
      · cases ht
        exact ⟨_, bind_eq_ok.mpr ⟨_, checkedAdd_of_lt h.dns, rfl⟩⟩
      · cases ht
  obtain ⟨dnp3, hdnp3⟩ := summaryOf_returns
    (fun t => liftChecked (Dnp3.summarize t)) s.dispatcher.dnp3
    fun t ht => by
      have hnil := h.forgotten.dnp3 t ht
      obtain ⟨r, hr⟩ := Dnp3.summarize_returns (s := t)
        ⟨by rw [total_nil hnil]; decide, by rw [total_nil hnil]; decide⟩
      exact ⟨_, bind_eq_ok.mpr ⟨r, hr, rfl⟩⟩
  obtain ⟨iec104, hiec104⟩ := summaryOf_returns
    (fun t => liftChecked (Iec104.summarize (stateOf (m := Wiring.iec104) t)))
    s.dispatcher.iec104 fun t ht => by
      have hnil := h.forgotten.iec104 t ht
      obtain ⟨r, hr⟩ := Iec104.summarize_returns (s := stateOf (m := Wiring.iec104) t)
        (by rw [Iec104.Unsaturated, total_nil hnil]; decide)
      exact ⟨_, bind_eq_ok.mpr ⟨r, hr, rfl⟩⟩
  obtain ⟨http, hhttp⟩ := summaryOf_returns
    (fun t => .ok (Http.summarize (stateOf (m := Wiring.http libs.httparse) t)))
    s.dispatcher.http fun t _ => ⟨_, rfl⟩
  obtain ⟨tls, htls⟩ := summaryOf_returns
    (fun t => .ok (Tls.summarize (stateOf (m := Wiring.tls libs.tlsParser) t)))
    s.dispatcher.tls fun t _ => ⟨_, rfl⟩
  obtain ⟨modbus, hmodbus⟩ := summaryOf_returns (fun t => .ok (Modbus.summarize t))
    s.dispatcher.modbus fun t _ => ⟨_, rfl⟩
  obtain ⟨enip, henip⟩ := summaryOf_returns
    (fun t => .ok (lift (Enip.summarize (stateOf (m := Wiring.enip) t))))
    s.dispatcher.enip fun t _ => ⟨_, rfl⟩
  obtain ⟨arp, harp⟩ := summaryOf_returns (fun t => .ok (Arp.summarize t))
    (if o.enableArp then some s.arpAnalyzer else none) fun t _ => ⟨_, rfl⟩
  refine ⟨reasm ++ dns ++ http ++ tls ++ modbus ++ dnp3 ++ enip ++ iec104 ++ arp, ?_⟩
  simp only [analyzerSummaries, bind_eq_ok]
  exact ⟨reasm, hreasm, dns, hdns, http, hhttp, tls, htls, modbus, hmodbus, dnp3, hdnp3, enip,
    henip, iec104, hiec104, arp, harp, rfl⟩

theorem conclude_counts {ord : Orders} {s s' : Analysis (analyzers libs)}
    (h : conclude ord s = .ok s') :
    SameCounts s s' := by
  obtain ⟨s₁, hfinal, h⟩ := bind_eq_ok.mp h
  cases h
  unfold finalizeStreams at hfinal
  cases hreasm : s.reassembler with
  | none =>
    simp only [hreasm] at hfinal
    cases hfinal
    exact ⟨rfl, rfl⟩
  | some reasm =>
    simp only [hreasm] at hfinal
    obtain ⟨reasm', -, hfinal⟩ := bind_eq_ok.mp hfinal
    obtain ⟨dispatcher, -, hfinal⟩ := bind_eq_ok.mp hfinal
    cases hfinal
    exact ⟨rfl, rfl⟩

theorem runAnalyze_summaries {lib : Decoder.Etherparse} {ord : Orders} {o : Options}
    {targets : List Target} {s : Analysis (analyzers libs)}
    (h : runAnalyze lib libs ord o targets = .ok (.ok s))
    (hcount : (ipPackets (decodeOf lib) (filesOf targets)).length < 2 ^ 64) :
    ∃ reports, analyzerSummaries o s = .ok reports := by
  refine Summable.returns ⟨fun reasm hreasm => ?_, ?_, ?_⟩ o
  · rcases runAnalyze_streamed h with ⟨-, hnone, -⟩ | ⟨reasm', -, hreasm', hstreamed⟩
    · rw [hnone] at hreasm
      cases hreasm
    · rw [hreasm'] at hreasm
      cases hreasm
      obtain ⟨honce, hcloses⟩ := streamed_counted hstreamed
      have hretired : reasm.stats.flowsFin + reasm.stats.flowsRst ≤ retired (view reasm) := by
        unfold retired
        exact Nat.le_trans (Nat.le_add_right _ _) (Nat.le_add_right _ _)
      omega
  · obtain ⟨-, -, reassembler, s₁, -, hrun, hconclude⟩ := runAnalyze_completed h
    have hdns := (dns_keeps o.flags ord).run (s := o.start libs reassembler) (Nat.le_refl 0) hrun
    rw [dnsTotal, (conclude_counts hconclude).dns]
    exact Nat.lt_of_le_of_lt hdns hcount
  · obtain ⟨-, ⟨n, hhold⟩, events, hheeds, hquiet⟩ := runAnalyze_quiet h
    exact forgotten_of_heeds hheeds hhold hquiet

end Summaries

/-! ## The gaps -/

section Gaps

variable {a : Analyzers}

theorem countUnclassified_portsOf {d : StreamDispatcher a} (flowKey : FlowKey)
    (h : PortsOf .tcp d.unclassifiedPortCounts) :
    PortsOf .tcp (countUnclassified d flowKey).unclassifiedPortCounts := by
  unfold countUnclassified
  split
  · dsimp only
    split
    · exact h.count _
    · exact h
  · exact h

theorem handle_portsOf {d d' : StreamDispatcher a} {event : Event}
    (h : PortsOf .tcp d.unclassifiedPortCounts) (hs : CoverageGaps.handle d event = .ok d') :
    PortsOf .tcp d'.unclassifiedPortCounts := by
  cases event with
  | onData key direction data offset timestamp =>
    rw [CoverageGaps.onData_ports hs]
    exact h
  | onFlowClose key reason =>
    cases hs
    rcases onFlowClose_cases d key reason with ⟨-, heq⟩ | ⟨target, -, heq⟩
    · rw [heq]
      exact countUnclassified_portsOf key h
    · rw [heq, (retireFlow_spec _ target key).kept.ports]
      exact h
  | _ =>
    cases hs
    exact h

theorem countGap_portsOf (flags : Flags) {s : Analysis a} (parsed : ParsedPacket)
    (h : PortsOf .udp s.udpUnclassifiedCounts) :
    PortsOf .udp (countGap flags s parsed).udpUnclassifiedCounts := by
  unfold countGap udpGapKey
  split
  · split
    · rename_i key hkey
      split at hkey
      · cases hkey
      · split at hkey
        · cases hkey
          exact h.count _
        · cases hkey
    · exact h
  · exact h

theorem udp_keeps (flags : Flags) (ord : Orders) :
    Keeps flags ord fun _ (s : Analysis a) => PortsOf .udp s.udpUnclassifiedCounts :=
  keeps_of_counts (fun pre s s' hsame h => by rw [hsame.udp]; exact h)
    fun pre s parsed timestampSecs h => countGap_portsOf flags parsed (by
      rw [analyzeDns_udp]
      exact h)

theorem runAnalyze_gaps {lib : Decoder.Etherparse} {libs : Libraries} {ord : Orders} {o : Options}
    {targets : List Target} {s : Analysis (analyzers libs)}
    (h : runAnalyze lib libs ord o targets = .ok (.ok s)) :
    Returns (collectAllGaps s.dispatcher.unclassifiedPortCounts s.udpUnclassifiedCounts)
      fun all => ∀ k n, all.get? k = some n ↔
        s.dispatcher.unclassifiedPortCounts.get? k = some n ∨
          s.udpUnclassifiedCounts.get? k = some n := by
  refine collectAllGaps_returns ?_ ?_
  · rcases runAnalyze_streamed h with ⟨-, -, hsame⟩ | ⟨reasm, -, -, hstreamed⟩
    · rw [hsame]
      exact .empty .tcp
    · exact run_keeps (I := fun d : StreamDispatcher (analyzers libs) =>
        PortsOf .tcp d.unclassifiedPortCounts) (fun _ _ _ => handle_portsOf) (.empty .tcp)
        hstreamed.handled
  · obtain ⟨-, -, reassembler, s₁, -, hrun, hconclude⟩ := runAnalyze_completed h
    rw [(conclude_counts hconclude).udp]
    exact (udp_keeps o.flags ord).run (s := o.start libs reassembler) (.empty .udp) hrun

end Gaps

end Wirerust.RunCounts
