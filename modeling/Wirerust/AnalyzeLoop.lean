import Wirerust.Pipelines
import Wirerust.Reassembly.Conversations

/-!
What the loop of `run_analyze` does to the reassembler and to the dispatcher.

`analyze_feeds`: after any files the reassembler is what the IP packets of the files make of it,
one after the other, and the dispatcher what the calls of the reassembler make of it. So what is
known of either of them over its runs is known of the loop. `analyze_conversation` puts the two
together for one connection: the analyzer of its protocol is given both streams.
-/

namespace Wirerust.AnalyzeLoop

open Lib Wirerust.Flow Wirerust.Engine Wirerust.Moves Wirerust.Retiring Wirerust.EngineSpec
  Wirerust.Alone Wirerust.Lifetimes Wirerust.Handler Wirerust.Conversations
open Wirerust.Analyzer Wirerust.Capture Wirerust.Decoder Wirerust.Dispatcher Wirerust.Pipelines

/-! ## The reassembler only adds events -/

theorem receive_events {ord : IterOrder} {s s' : TcpReassembler} (hr : Ready (view s))
    {i : Alone.Input} (h : receive ord s i = .ok s') : s.events <+: s'.events := by
  rcases processPacket_eq_ok hr h with ⟨-, -, new, hdis, -⟩ |
    ⟨key, tcp, s₁, s₂, s₃, f, out, swept, evicted, -, hh, -⟩
  · exact ⟨new, hdis.events.symm⟩
  · have hgreets : s₁.events <+: s₂.events := by
      cases hh.greets with
      | created index hnone hflows hevents => exact ⟨_, hevents.symm⟩
      | known g index hg hflows hevents => rw [hevents]
    have hbefore : s.events <+: s₁.events := ⟨swept, hh.before.events.symm⟩
    have hacts : s₂.events <+: s₃.events := ⟨_, hh.acts.events.symm⟩
    exact (hbefore.trans hgreets).trans (hacts.trans ⟨evicted, hh.after.events.symm⟩)

/-! ## What the two components see -/

section Feeds

variable {a : Analyzers} (decode : Decode) (flags : Flags) (ord : Orders)

/-- The IP packet of a frame, with its time. -/
def ipPacket (datalink : DataLink) (raw : RawPacket) : Option Alone.Input :=
  match decode raw.data datalink with
  | .ok (.ip parsed _) => some (parsed, raw.timestampSecs)
  | _ => none

def ipPacketsOf : CaptureFile → List Alone.Input
  | .error _ => []
  | .ok source => source.packets.filterMap (ipPacket decode source.datalink)

/-- The IP packets of all files that can be read, in the order of the loop. -/
def ipPackets (files : List CaptureFile) : List Alone.Input := files.flatMap (ipPacketsOf decode)

/-- The reassembler has been given these packets, and the dispatcher all its calls. -/
structure Fed (config : ReassemblyConfig) (dispatcher : StreamDispatcher a)
    (inputs : List Alone.Input) (s : Analysis a) : Prop where
  fed : ∃ s₀ reasm, TcpReassembler.new config = .ok s₀ ∧ s.reassembler = some reasm ∧
    run (receive ord.iter) s₀ inputs = .ok reasm ∧
    run CoverageGaps.handle dispatcher reasm.events = .ok s.dispatcher

/-- Neither of the two has changed. -/
def SameStreams (s s' : Analysis a) : Prop :=
  s'.reassembler = s.reassembler ∧ s'.dispatcher = s.dispatcher

variable {decode flags ord} {config : ReassemblyConfig} {dispatcher : StreamDispatcher a}
  {inputs : List Alone.Input} {s s' : Analysis a}

theorem Fed.of_same (h : Fed ord config dispatcher inputs s) (hsame : SameStreams s s') :
    Fed ord config dispatcher inputs s' := by
  obtain ⟨s₀, reasm, hnew, hreasm, hrun, hhandle⟩ := h.fed
  exact ⟨s₀, reasm, hnew, hsame.1.trans hreasm, hrun, hsame.2 ▸ hhandle⟩

theorem analyzeDns_streams (flags : Flags) (s : Analysis a) (parsed : ParsedPacket) :
    SameStreams s (analyzeDns flags s parsed) := by
  unfold analyzeDns
  split
  · exact ⟨rfl, rfl⟩
  · exact ⟨rfl, rfl⟩

theorem countGap_streams (flags : Flags) (s : Analysis a) (parsed : ParsedPacket) :
    SameStreams s (countGap flags s parsed) := by
  unfold countGap
  split
  · split
    · exact ⟨rfl, rfl⟩
    · exact ⟨rfl, rfl⟩
  · exact ⟨rfl, rfl⟩

theorem analyzeArp_streams {frame : Arp.ArpFrame} {timestampSecs : UInt32}
    (h : analyzeArp flags ord s frame timestampSecs = .ok s') : SameStreams s s' := by
  unfold analyzeArp at h
  split at h
  · obtain ⟨out, -, h⟩ := bind_eq_ok.mp h
    cases h
    exact ⟨rfl, rfl⟩
  · cases h
    exact ⟨rfl, rfl⟩

theorem analyzeMalformed_streams (flags : Flags) (s : Analysis a) (packetLen : Nat) :
    SameStreams s (analyzeMalformed flags s packetLen) := by
  unfold analyzeMalformed
  split
  · exact ⟨rfl, rfl⟩
  · exact ⟨rfl, rfl⟩

/-- One packet is reassembled, and its calls are handled. -/
theorem Fed.reassemble (h : Fed ord config dispatcher inputs s) {parsed : ParsedPacket}
    {timestampSecs : UInt32} (hs : reassemble ord s parsed timestampSecs = .ok s') :
    Fed ord config dispatcher (inputs ++ [(parsed, timestampSecs)]) s' := by
  obtain ⟨s₀, reasm, hnew, hreasm, hrun, hhandle⟩ := h.fed
  unfold Pipelines.reassemble at hs
  rw [hreasm] at hs
  obtain ⟨reasm', hpacket, hs⟩ := bind_eq_ok.mp hs
  obtain ⟨dispatcher', hcalls, hs⟩ := bind_eq_ok.mp hs
  cases hs
  have hr := ((receive_run_counted ord.iter hnew inputs).2 reasm hrun).ready
  obtain ⟨new, hevents⟩ := receive_events hr (i := (parsed, timestampSecs)) hpacket
  refine ⟨s₀, reasm', hnew, rfl, ?_, ?_⟩
  · rw [run_snoc, hrun]
    exact hpacket
  · rw [← hevents, run_append, hhandle]
    rw [← hevents, List.drop_left] at hcalls
    exact hcalls

theorem Fed.packet (h : Fed ord config dispatcher inputs s) {datalink : DataLink}
    {raw : RawPacket} (hs : analyzePacket decode flags ord datalink s raw = .ok s') :
    Fed ord config dispatcher (inputs ++ (ipPacket decode datalink raw).toList) s' := by
  unfold analyzePacket at hs
  unfold ipPacket
  cases hdecode : decode raw.data datalink with
  | ok d =>
    rw [hdecode] at hs
    cases d with
    | ip parsed packetLen =>
      obtain ⟨summary, -, hs⟩ := bind_eq_ok.mp hs
      obtain ⟨s₁, hreassemble, hs⟩ := bind_eq_ok.mp hs
      cases hs
      have hsummary : Fed ord config dispatcher inputs { s with summary := summary } :=
        h.of_same ⟨rfl, rfl⟩
      have hready := hsummary.of_same (analyzeDns_streams flags _ parsed)
      exact (hready.reassemble hreassemble).of_same (countGap_streams flags s₁ parsed)
    | arp frame =>
      simpa using h.of_same (analyzeArp_streams hs)
  | error e =>
    rw [hdecode] at hs
    simp only at hs
    split at hs
    · cases hs
      simpa using h.of_same (analyzeMalformed_streams flags s raw.data.length)
    · cases hs
      have hcount : Fed ord config dispatcher inputs { s with
          totalDecodeErrors := bump64 s.totalDecodeErrors } := h.of_same ⟨rfl, rfl⟩
      simpa using hcount

theorem Fed.file (h : Fed ord config dispatcher inputs s) {file : CaptureFile}
    (hs : analyzeFile decode flags ord s file = .ok s') :
    Fed ord config dispatcher (inputs ++ ipPacketsOf decode file) s' := by
  unfold analyzeFile at hs
  cases file with
  | error e =>
    cases hs
    have hfailed : Fed ord config dispatcher inputs { s with anyError := true } :=
      h.of_same ⟨rfl, rfl⟩
    simpa [ipPacketsOf] using hfailed
  | ok source =>
    simp only at hs
    split at hs
    · rename_i hempty
      cases hs
      simpa [ipPacketsOf, List.isEmpty_iff.mp hempty] using h
    · refine run_keeps_seen (I := fun pre s => Fed ord config dispatcher
        (inputs ++ pre.filterMap (ipPacket decode source.datalink)) s)
        (fun pre s raw s' hI hstep => ?_) (by simpa using h) hs
      have hfed := hI.packet hstep
      have hlast : [raw].filterMap (ipPacket decode source.datalink) =
          (ipPacket decode source.datalink raw).toList := by
        cases hraw : ipPacket decode source.datalink raw <;> simp [hraw]
      rw [List.filterMap_append, hlast, ← List.append_assoc]
      exact hfed

theorem analyze_feeds {arpAnalyzer : Arp.ArpAnalyzer} {s₀ : TcpReassembler}
    (hnew : TcpReassembler.new config = .ok s₀) {files : List CaptureFile}
    (hs : run (analyzeFile decode flags ord) (.start arpAnalyzer (some s₀) dispatcher) files =
      .ok s) : Fed ord config dispatcher (ipPackets decode files) s := by
  have hstart : Fed ord config dispatcher (ipPackets decode []) (.start arpAnalyzer (some s₀)
      dispatcher : Analysis a) := by
    obtain ⟨-, hview⟩ := new_eq_ok hnew
    refine ⟨s₀, s₀, hnew, rfl, rfl, ?_⟩
    rw [show s₀.events = [] from congrArg View.events hview]
    rfl
  refine run_keeps_seen (I := fun pre s => Fed ord config dispatcher (ipPackets decode pre) s)
    (fun pre s file s' hI hstep => ?_) hstart hs
  have hfed := hI.file hstep
  simpa [ipPackets, List.flatMap_append] using hfed

end Feeds

/-! ## The dispatcher and one flow -/

/-- The call of the dispatcher that goes with an event. -/
def input? : Event → Option Dispatcher.Input
  | .onData key direction data offset timestamp =>
    some (.data ⟨key, direction, data, offset, timestamp⟩)
  | .onFlowClose key reason => some (.close key reason)
  | _ => none

def toChunk (k : FlowKey) (d : Delivery) : Dispatcher.Chunk :=
  ⟨k, d.direction, d.data, d.offset, d.timestamp⟩

section Dispatch

variable {a : Analyzers}

theorem run_handle (events : List Event) (d : StreamDispatcher a) :
    run CoverageGaps.handle d events = run onInput d (events.filterMap input?) := by
  induction events generalizing d with
  | nil => rfl
  | cons e events ih =>
    have hskip : ∀ d : StreamDispatcher a, CoverageGaps.handle d e = .ok d → input? e = none →
        run CoverageGaps.handle d (e :: events) =
          run onInput d ((e :: events).filterMap input?) := by
      intro d hhandle hnone
      rw [run_cons, hhandle, List.filterMap_cons_none hnone]
      exact ih d
    cases e with
    | onData key direction data offset timestamp => exact bind_congr_ok fun d' _ => ih d'
    | onFlowClose key reason => exact ih (onFlowClose d key reason)
    | _ => exact hskip d rfl rfl

theorem about_cons (k : FlowKey) (e : Event) (events : List Event) :
    about k (e :: events) = if eventKey e = k then e :: about k events else about k events := by
  simp [about, List.filter_cons]

theorem chunksOf_inputs (k : FlowKey) (events : List Event) :
    chunksOf k (events.filterMap input?) = (deliveries (about k events)).map (toChunk k) := by
  induction events with
  | nil => rfl
  | cons e events ih =>
    have hskip : chunksOf k ((e :: events).filterMap input?) =
          chunksOf k (events.filterMap input?) → delivery? e = none →
        chunksOf k ((e :: events).filterMap input?) =
          (deliveries (about k (e :: events))).map (toChunk k) := by
      intro hinput hdelivery
      rw [hinput, ih, about_cons]
      split
      · rw [deliveries, deliveries, List.filterMap_cons_none hdelivery]
      · rfl
    cases e with
    | onData key direction data offset timestamp =>
      have hcons : (Event.onData key direction data offset timestamp :: events).filterMap input? =
          .data ⟨key, direction, data, offset, timestamp⟩ :: events.filterMap input? := rfl
      rw [hcons, chunksOf_cons, ih, about_cons]
      by_cases hkey : key = k
      · subst hkey
        simp [chunksOf, eventKey, deliveries, delivery?, toChunk]
      · simp [chunksOf, eventKey, hkey]
    | onFlowClose key reason =>
      refine hskip ?_ rfl
      have hcons : (Event.onFlowClose key reason :: events).filterMap input? =
          .close key reason :: events.filterMap input? := rfl
      rw [hcons, chunksOf_cons]
      rfl
    | _ => exact hskip rfl rfl

theorem closes_inputs {k : FlowKey} {events : List Event}
    (hopen : ∀ reason, .onFlowClose k reason ∉ events) :
    ∀ i ∈ events.filterMap input?, i.closes k = false := by
  intro i hi
  obtain ⟨e, he, hei⟩ := List.mem_filterMap.mp hi
  cases e with
  | onData key direction data offset timestamp =>
    cases hei
    rfl
  | onFlowClose key reason =>
    cases hei
    exact decide_eq_false fun heq => hopen reason (heq ▸ he)
  | _ => cases hei

/-- The first chunk of a flow whose target is clear from it. -/
theorem onData_classified {s s' : StreamDispatcher a} {c : Dispatcher.Chunk}
    {target : DispatchTarget} (hconf : s.configured target = true)
    (hnone : s.routes.get? c.flowKey = none) (hclass : classify c.data c.flowKey = target)
    (h : onData s c = .ok s') :
    s'.calls = s.calls ++ callTo s target c ∧ s'.routes.get? c.flowKey = some target := by
  have hne : target ≠ .none := fun heq => by
    rw [heq] at hconf
    cases hconf
  have hroute : route s c = ({ s with
      routes := s.routes.insert c.flowKey target
      classificationAttempts := s.classificationAttempts.erase c.flowKey }, target) := by
    unfold route
    rw [hnone]
    simp only [hclass, if_neg hne]
  rcases onData_cases h with ⟨hany, -⟩ | ⟨hkept, -⟩
  · rw [configured_of_not_any hany] at hconf
    cases hconf
  · obtain ⟨hcalls, -⟩ := record_calls (route s c).1 (route s c).2 c
    rw [hkept.calls, hcalls, hkept.routes, record_routes, hroute]
    exact ⟨rfl, SortedMap.get?_insert_self _ _ _⟩

/-- All chunks of a flow go where its first one belongs. -/
theorem run_classified {k : FlowKey} {target : DispatchTarget} (l : List Dispatcher.Input)
    (hopen : ∀ i ∈ l, i.closes k = false) {s s' : StreamDispatcher a}
    (hconf : s.configured target = true) (hnone : s.routes.get? k = none)
    (hfirst : ∀ c ∈ (chunksOf k l).head?, classify c.data k = target)
    (hrun : run onInput s l = .ok s') :
    callsOf k s' = callsOf k s ++ (chunksOf k l).map fun c => (target, c) := by
  have hcallTo : ∀ c, callTo s target c = [(target, c)] := fun c => by rw [callTo, if_pos hconf]
  induction l generalizing s with
  | nil =>
    cases hrun
    exact (List.append_nil _).symm
  | cons i l ih =>
    have hopen' : ∀ j ∈ l, j.closes k = false := fun j hj => hopen j (List.mem_cons_of_mem _ hj)
    obtain ⟨s₁, hstep, hrest⟩ := bind_eq_ok.mp hrun
    obtain ⟨hsame, hflow⟩ := onInput_flow (hopen i List.mem_cons_self) hstep
    rw [chunksOf_cons] at hfirst ⊢
    rcases hflow with ⟨hchunks, hroute, hcalls⟩ | ⟨c, -, hchunks, -, -⟩
    · rw [hchunks, List.nil_append] at hfirst ⊢
      rw [ih hopen' ((hsame target).trans hconf) (hroute.trans hnone) hfirst hrest
        (fun c => by rw [callTo_congr hsame, hcallTo]), hcalls]
    · cases i with
      | close k' reason => cases hchunks
      | data c' =>
        have hkey : c'.flowKey = k ∧ c' = c := by
          by_cases hkey : c'.flowKey = k
          · exact ⟨hkey, by simpa [chunksOf, hkey] using hchunks⟩
          · simp [chunksOf, hkey] at hchunks
        obtain ⟨rfl, rfl⟩ := hkey
        rw [hchunks] at hfirst ⊢
        obtain ⟨hcalls, hroute⟩ := onData_classified hconf hnone (hfirst c' rfl) hstep
        have hone := callsOf_append c'.flowKey hcalls
        rw [if_pos rfl, hcallTo] at hone
        have hall : (chunksOf c'.flowKey l).flatMap (callTo s target) =
            (chunksOf c'.flowKey l).map fun c => (target, c) := by
          rw [funext hcallTo, List.map_eq_flatMap]
        rw [(run_cached l hopen' hroute hrest).2, hone, callTo_congr hsame, hall,
          List.append_assoc]
        rfl

end Dispatch

/-! ## One connection -/

theorem run_receive (ord : IterOrder) (s : TcpReassembler) (inputs : List Alone.Input) :
    run (receive ord) s inputs = run (step ord) s (inputs.map fun i => .packet i.1 i.2) := by
  induction inputs generalizing s with
  | nil => rfl
  | cons i inputs ih => exact bind_congr_ok fun s' _ => ih s'

/-- The packets of a key among those of the files. -/
def packetsOfKey (decode : Decode) (k : FlowKey) (files : List CaptureFile) : List FlowPacket :=
  packetsFor k ((ipPackets decode files).map fun i => .packet i.1 i.2)

theorem chunksIn_filter (w : Direction) (ds : List Delivery) (k : FlowKey)
    (target : DispatchTarget) :
    (((ds.map (toChunk k)).map fun c => (target, c)).filter fun call =>
      call.2.direction = w).map (fun call => call.2.data) = (chunksIn w ds).map Prod.snd := by
  simp only [chunksIn, List.filter_map, List.map_map]
  rfl

theorem analyze_conversation {a : Analyzers} (decode : Decode) (flags : Flags) (ord : Orders)
    (config : ReassemblyConfig) (s₀ : TcpReassembler)
    (hnew : TcpReassembler.new config = .ok s₀) (setup : Setup a) (arpAnalyzer : Arp.ArpAnalyzer)
    (files : List CaptureFile) (c : Conversation)
    (hroom : ∀ w, AnyOrder.Roomy (c.segs w) config.limits) (items : List Item)
    (hitems : List.Forall₂ c.Carries items (packetsOfKey decode c.key files))
    (hproper : Proper items) (hall : ∀ w, ∀ i < (c.segs w).length, .data w i ∈ items)
    (target : DispatchTarget) (htarget : setup.dispatcher.configured target = true)
    (hclass : ∀ w, ∀ s ∈ (c.segs w).head?, classify s c.key = target) {s : Analysis a}
    (hs : run (analyzeFile decode flags ord)
      (.start arpAnalyzer (some s₀) setup.dispatcher) files = .ok s)
    (hopen : ∀ reasm, s.reassembler = some reasm →
      ∀ reason, .onFlowClose c.key reason ∉ reasm.events) :
    (∀ call ∈ callsOf c.key s.dispatcher, call.1 = target) ∧
      ∀ w, ((callsOf c.key s.dispatcher).filter fun call => call.2.direction = w).map
        (fun call => call.2.data) = c.segs w := by
  obtain ⟨s₁, reasm, hnew', hreasm, hrun, hhandle⟩ := (analyze_feeds hnew hs).fed
  obtain rfl : s₀ = s₁ := Except.ok.inj (hnew.symm.trans hnew')
  have hopen := hopen reasm hreasm
  rw [run_receive] at hrun
  have hstreams := (capture_conversation ord.iter config s₀ hnew c hroom _ items hitems hproper
    hall).2 reasm hrun hopen
  have hchunks := chunksOf_inputs c.key reasm.events
  have hfirst : ∀ ch ∈ (chunksOf c.key (reasm.events.filterMap input?)).head?,
      classify ch.data c.key = target := by
    intro ch hch
    rw [hchunks] at hch
    cases hds : deliveries (about c.key reasm.events) with
    | nil =>
      rw [hds] at hch
      cases hch
    | cons d ds =>
      rw [hds] at hch
      cases hch
      refine hclass d.direction d.data ?_
      have hside := hstreams d.direction
      rw [hds, chunksIn, List.filter_cons_of_pos (by simp)] at hside
      rw [← hside]
      rfl
  rw [run_handle] at hhandle
  have hcalls := run_classified _ (closes_inputs hopen) htarget rfl hfirst hhandle
  rw [show callsOf c.key setup.dispatcher = [] from rfl, List.nil_append, hchunks] at hcalls
  rw [hcalls]
  refine ⟨fun call hcall => ?_, fun w => ?_⟩
  · obtain ⟨ch, -, rfl⟩ := List.mem_map.mp hcall
    rfl
  · rw [chunksIn_filter]
    exact hstreams w

/-! ## A short connection in a file -/

/-- IPv4 and TCP headers without options. -/
def plainTcp : Decode := fun data _ =>
  let number (start length : Nat) := bigEndian (field data start length)
  if number 0 1 = 0x45 ∧ number 9 1 = 6 ∧ number 32 1 = 0x50 then
    let flag (bit : Nat) := (number 33 1).testBit bit
    .ok (.ip ⟨.v4 (.ofNat 32 (number 12 4)), .v4 (.ofNat 32 (number 16 4)), .tcp,
      .tcp ⟨.ofNat (number 20 2), .ofNat (number 22 2), .ofNat (number 24 4), flag 1, flag 4,
        flag 0, flag 2⟩, data.drop 40⟩ data.length)
  else .error "Parse error"

/-- A frame between 10.0.0.1:80 and 10.0.0.2:90. -/
def tcpFrame (back : Bool) (seq : List UInt8) (flags : UInt8) (payload : List UInt8) : RawPacket :=
  let hosts := [[10, 0, 0, 1], [10, 0, 0, 2]]
  let ports := [[0, 80], [0, 90]]
  let order := fun l : List (List UInt8) => (if back then l.reverse else l).flatten
  ⟨1, 0, [0x45, 0, 0, UInt8.ofNat (40 + payload.length), 0, 0, 0, 0, 64, 6, 0, 0] ++ order hosts ++
    order ports ++ seq ++ [0, 0, 0, 0, 0x50, flags, 16, 0, 0, 0, 0, 0] ++ payload⟩

/-- The packets of `exchangeCalls`. -/
def exchangeFile : CaptureFile :=
  .ok ⟨[tcpFrame false [0, 0, 0, 7] 0x02 [], tcpFrame true [255, 255, 255, 255] 0x12 [],
    tcpFrame false [0, 0, 0, 10] 0x10 [3], tcpFrame true [0, 0, 0, 0] 0x11 [4],
    tcpFrame false [0, 0, 0, 8] 0x10 [1, 2], tcpFrame false [0, 0, 0, 8] 0x10 [1, 2]],
    .raw, 0, 0, false⟩

def httpOnly : Setup CoverageGaps.takers where
  http := some ()
  tls := none
  modbus := none
  dnp3 := none
  enip := none
  iec104 := none
  maxClassificationAttempts := 8
  coverageGaps := false

theorem exchange_packets :
    packetsOfKey plainTcp exchange.key [exchangeFile] = packetsFor exchange.key exchangeCalls :=
  rfl

theorem analyze_conversation_exchange : ∃ s₀ s, TcpReassembler.new .default = .ok s₀ ∧
    run (analyzeFile plainTcp ⟨false, false, false⟩ plainOrders)
      (.start (.new 3 100) (some s₀) httpOnly.dispatcher) [exchangeFile] = .ok s ∧
    (∀ call ∈ callsOf exchange.key s.dispatcher, call.1 = .http) ∧
      ∀ w, ((callsOf exchange.key s.dispatcher).filter fun call => call.2.direction = w).map
        (fun call => call.2.data) = exchange.segs w := by
  refine ⟨_, _, rfl, rfl, ?_⟩
  refine analyze_conversation (a := CoverageGaps.takers) plainTcp ⟨false, false, false⟩ plainOrders
    .default _ rfl httpOnly (.new 3 100) [exchangeFile] exchange exchange_roomy exchangeItems
    (by rw [exchange_packets]; exact exchange_carries) exchangeItems_proper
    (fun w => by cases w <;> decide) .http rfl (fun w => by cases w <;> decide) rfl ?_
  intro reasm hreasm reason
  cases hreasm
  cases reason <;> decide

end Wirerust.AnalyzeLoop
