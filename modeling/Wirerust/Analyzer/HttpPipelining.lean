import Wirerust.Analyzer.HttpSides
import Wirerust.Lib.Cutting
import Wirerust.Lib.Tally

/-!
Pipelined HTTP messages (`try_parse_requests` and `try_parse_responses` of `analyzer/http.rs`).

A parser that waits for as long as a message is not complete reads the messages of a stream one
after the other, however the stream is cut into chunks: a run over the chunks is a run of the
recording step over the messages, each at the time of the chunk that completes it
(`run_messages`). The next part says what recording leaves (`run_requests`, `run_responses`).
-/

namespace Wirerust.Http

open Lib Wirerust.Flow Wirerust.Analyzer

/-- The bytes of a message and what the parser makes of them. -/
structure Message (α : Type) where
  bytes : List UInt8
  parsed : α

structure PrefixStable {α : Type} (parse : List UInt8 → Parsed α) (m : Message α) : Prop where
  complete : ∀ rest, parse (m.bytes ++ rest) = .ok (some (m.bytes.length, m.parsed))
  waits : ∀ front, front <+: m.bytes → front ≠ [] → front ≠ m.bytes → parse front = .ok none

/-- A reader as `onData` uses it. -/
structure Serves (lib : Httparse) {α : Type} (r : Reader α) : Prop extends Reads lib r where
  loop : ∀ s flow, tryParseSide lib r.direction s flow =
    tryParse r (flow.side r.direction).buf.length false s flow
  keeps : ∀ (s : HttpAnalyzer) flows lastTs parsed,
    r.record { s with flows := flows } lastTs parsed =
      r.record s lastTs parsed >>= fun s' => .ok { s' with flows := flows }

theorem requestReader_serves (lib : Httparse) : Serves lib (requestReader lib) where
  toReads := requestReader_reads lib
  loop := fun _ _ => rfl
  keeps := by
    intro s flows lastTs parsed
    show recordRequest _ lastTs parsed = recordRequest s lastTs parsed >>= _
    simp only [recordRequest, bind_bind, ok_bind]

theorem responseReader_serves (lib : Httparse) : Serves lib (responseReader lib) where
  toReads := responseReader_reads lib
  loop := fun _ _ => rfl
  keeps := by
    intro s flows lastTs parsed
    show recordResponse _ lastTs parsed = recordResponse s lastTs parsed >>= _
    simp only [recordResponse, bind_bind, ok_bind]

section Reader

variable {lib : Httparse} {α : Type} {r : Reader α}

theorem PrefixStable.bytes_ne (hr : Serves lib r) {m : Message α} (h : PrefixStable r.parse m) :
    m.bytes ≠ [] := by
  have hattempt : attempt lib r.direction m.bytes = .parsed m.bytes.length := by
    have hcomplete := h.complete []
    rw [List.append_nil] at hcomplete
    rw [← hr.parse, hcomplete]
    rfl
  exact List.length_pos_iff.mp (attempt_bounds hattempt).1

/-! ## One chunk -/

/-- Messages that are recorded at one time. -/
def recordAll (r : Reader α) (lastTs : UInt32) (s : HttpAnalyzer) (done : List (Message α)) :
    Checked HttpAnalyzer := run (fun s m => r.record s lastTs m.parsed) s done

/-- The loop takes the complete messages off the front. -/
theorem tryParse_messages (done : List (Message α)) {held : List UInt8}
    (hdone : ∀ m ∈ done, PrefixStable r.parse m) (hne : ∀ m ∈ done, m.bytes ≠ [])
    (hheld : held = [] ∨ r.parse held = .ok none) (turns : Nat)
    (hturns : (done.flatMap Message.bytes ++ held).length ≤ turns) (hadSuccess : Bool)
    (s : HttpAnalyzer) (flow : HttpFlowState)
    (hside : flow.side r.direction = { buf := done.flatMap Message.bytes ++ held }) :
    tryParse r turns hadSuccess s flow = recordAll r flow.lastTs s done >>= fun s' =>
      .ok (s', flow.setSide r.direction { buf := held }) := by
  induction done generalizing turns hadSuccess s flow with
  | nil =>
    rw [List.flatMap_nil, List.nil_append] at hside hturns
    have hflow : flow.setSide r.direction { buf := held } = flow := by
      rw [← hside, setSide_side]
    rw [recordAll, run_nil, ok_bind, hflow]
    cases turns with
    | zero => rfl
    | succ turns =>
      rw [tryParse, hside]
      simp only
      by_cases hempty : held.isEmpty = true
      · rw [if_pos hempty]
      · rw [if_neg hempty]
        rcases hheld with rfl | hwaits
        · exact absurd rfl hempty
        · rw [hwaits]
  | cons m done ih =>
    have hm := hdone m List.mem_cons_self
    have hlength := List.length_pos_iff.mpr (hne m List.mem_cons_self)
    rw [List.flatMap_cons, List.append_assoc] at hside hturns
    rw [List.length_append] at hturns
    cases turns with
    | zero => omega
    | succ turns =>
      have hempty : ¬ (m.bytes ++ (done.flatMap Message.bytes ++ held)).isEmpty = true := by
        rw [List.isEmpty_iff, List.append_eq_nil_iff]
        exact fun h => hne m List.mem_cons_self h.1
      have hslice : slice (m.bytes ++ (done.flatMap Message.bytes ++ held)) m.bytes.length
          (m.bytes ++ (done.flatMap Message.bytes ++ held)).length =
          .ok (done.flatMap Message.bytes ++ held) := by
        rw [slice_of_le (by rw [List.length_append]; omega) (Nat.le_refl _), List.take_length,
          List.drop_left]
      rw [tryParse, hside]
      simp only
      rw [if_neg hempty, hm.complete, recordAll, run_cons, bind_bind]
      simp only
      congr 1
      funext s₁
      rw [hslice, ok_bind, ih (fun m' hm' => hdone m' (List.mem_cons_of_mem m hm'))
        (fun m' hm' => hne m' (List.mem_cons_of_mem m hm')) turns (by omega) true s₁ _
        (side_setSide _ _ _), (setSide_rest _ _ _).2, recordAll]
      congr 1
      funext s₂
      cases r.direction with
      | clientToServer => rfl
      | serverToClient => rfl

/-- The flow with part of a message in the buffer of one direction. -/
def holding (dir : Direction) (held : List UInt8) (lastTs : UInt32) : HttpFlowState :=
  ({ lastTs := lastTs } : HttpFlowState).setSide dir { buf := held }

theorem holding_nil (dir : Direction) (lastTs : UInt32) :
    holding dir [] lastTs = { lastTs := lastTs } := by
  cases dir with
  | clientToServer => rfl
  | serverToClient => rfl

theorem recordAll_flows (hr : Serves lib r) {lastTs : UInt32} {s s' : HttpAnalyzer}
    {done : List (Message α)} (h : recordAll r lastTs s done = .ok s') : s'.flows = s.flows :=
  run_keeps (I := fun mid : HttpAnalyzer => mid.flows = s.flows)
    (fun mid m next hmid hnext => ((hr.record mid lastTs m.parsed).2 next hnext).1.flows.trans hmid)
    rfl h

theorem append_of_fits {held data : List UInt8} (h : held.length + data.length ≤ maxHeaderBuf) :
    Side.append { buf := held } data = { buf := held ++ data } := by
  unfold Side.append
  simp only
  by_cases hroom : maxHeaderBuf - held.length > 0
  · rw [if_pos hroom, List.take_of_length_le (by omega)]
  · have hdata : data = [] := List.eq_nil_of_length_eq_zero (by omega)
    rw [if_neg hroom, hdata, List.append_nil]

/-- A chunk of a stream and when it came. -/
structure Chunk where
  data : List UInt8
  timestamp : UInt32

def Chunk.toward (dir : Direction) (c : Chunk) : Call := ⟨dir, c.data, c.timestamp⟩

/-- A chunk completes some messages, which are recorded, and the rest of it is held. -/
theorem onCall_messages (hr : Serves lib r) {flowKey : FlowKey} {s : HttpAnalyzer} {c : Chunk}
    {held held' : List UInt8} {lastTs : UInt32} {done : List (Message α)}
    (hflow : flowOf s flowKey = holding r.direction held lastTs)
    (hdone : ∀ m ∈ done, PrefixStable r.parse m) (hheld : held' = [] ∨ r.parse held' = .ok none)
    (hdata : held ++ c.data = done.flatMap Message.bytes ++ held')
    (hroom : held.length + c.data.length ≤ maxHeaderBuf) :
    onCall lib flowKey s (c.toward r.direction) =
      recordAll r c.timestamp s done >>= fun s' => .ok { s' with
        flows := s.flows.insert flowKey (holding r.direction held' c.timestamp) } := by
  have hside : ({ flowOf s flowKey with lastTs := c.timestamp } : HttpFlowState).side r.direction =
      { buf := held } := by
    rw [side_lastTs, hflow, holding, side_setSide]
  show onData lib s flowKey r.direction c.data c.timestamp = _
  rw [onData, ← flowOf]
  simp only
  rw [hside, append_of_fits hroom, hdata]
  simp only [Bool.false_eq_true, if_false]
  rw [hr.loop, side_setSide, tryParse_messages done hdone (fun m hm => (hdone m hm).bytes_ne hr)
    hheld _ (Nat.le_refl _) false s _ (side_setSide _ _ _), (setSide_rest _ _ _).2, bind_bind]
  refine bind_congr_ok fun s' hs' => ?_
  rw [ok_bind, recordAll_flows hr hs', hflow]
  cases r.direction with
  | clientToServer => rfl
  | serverToClient => rfl

/-! ## All chunks -/

/-- The bytes of the chunks, each with the time of its chunk. -/
def stamps (chunks : List Chunk) : List UInt32 :=
  chunks.flatMap fun c => List.replicate c.data.length c.timestamp

/-- Messages that are recorded, each at its own time. -/
def recordStamped (r : Reader α) (s : HttpAnalyzer) (e : Message α × UInt32) :
    Checked HttpAnalyzer := r.record s e.2 e.1.parsed

/-- The flow after the last of the chunks, with nothing in its buffers. -/
def settled (flowKey : FlowKey) (chunks : List Chunk) (s : HttpAnalyzer) : HttpAnalyzer :=
  match chunks.getLast? with
  | none => s
  | some c => { s with flows := s.flows.insert flowKey { lastTs := c.timestamp } }

theorem run_record_keeps (hr : Serves lib r) (events : List (Message α × UInt32))
    (s : HttpAnalyzer) (flows : SortedMap FlowKey HttpFlowState) :
    run (recordStamped r) { s with flows := flows } events =
      run (recordStamped r) s events >>= fun s' => .ok { s' with flows := flows } := by
  induction events generalizing s with
  | nil => rfl
  | cons e events ih =>
    rw [run_cons, run_cons, recordStamped, hr.keeps, bind_bind, bind_bind]
    congr 1
    funext s₁
    exact ih s₁

theorem run_record_flows (hr : Serves lib r) {events : List (Message α × UInt32)}
    {s s' : HttpAnalyzer} (h : run (recordStamped r) s events = .ok s') : s'.flows = s.flows :=
  run_keeps (I := fun mid : HttpAnalyzer => mid.flows = s.flows)
    (fun mid e next hmid hnext => ((hr.record mid e.2 e.1.parsed).2 next hnext).1.flows.trans hmid)
    rfl h

theorem run_recordStamped (lastTs : UInt32) (s : HttpAnalyzer) (done : List (Message α)) :
    run (recordStamped r) s (done.map fun m => (m, lastTs)) = recordAll r lastTs s done := by
  rw [recordAll, run, run, List.foldlM_map]
  rfl

theorem settled_cons {flowKey : FlowKey} {c : Chunk} {chunks : List Chunk} {s s₀ : HttpAnalyzer}
    {dir : Direction} {held : List UInt8} (hflows : s.flows = s₀.flows)
    (hheld : chunks = [] → held = []) :
    settled flowKey chunks
        { s with flows := s₀.flows.insert flowKey (holding dir held c.timestamp) } =
      settled flowKey (c :: chunks) s := by
  cases chunks with
  | nil =>
    rw [hheld rfl, holding_nil, ← hflows]
    rfl
  | cons c' chunks =>
    rw [settled, settled, List.getLast?_cons_cons, List.getLast?_eq_some_getLast (by simp)]
    simp only [SortedMap.insert_insert, hflows]

/-- The parser waits for the rest of a message. -/
theorem waits_of_pending {messages : List (Message α)} {held : List UInt8}
    (hstable : ∀ m ∈ messages, PrefixStable r.parse m)
    (hpending : Pending Message.bytes held messages) :
    held = [] ∨ r.parse held = .ok none := by
  by_cases hempty : held = []
  · exact .inl hempty
  · cases messages with
    | nil => exact .inl hpending
    | cons m messages =>
      refine .inr ((hstable m List.mem_cons_self).waits held hpending.1 hempty ?_)
      rintro rfl
      exact absurd hpending.2 (Nat.lt_irrefl _)

theorem run_chunks (hr : Serves lib r) {flowKey : FlowKey} (chunks : List Chunk)
    {messages : List (Message α)} {held : List UInt8} {before : List UInt32} {lastTs : UInt32}
    (s : HttpAnalyzer) (hflow : flowOf s flowKey = holding r.direction held lastTs)
    (hstable : ∀ m ∈ messages, PrefixStable r.parse m)
    (hpending : Pending Message.bytes held messages)
    (hstream : held ++ chunks.flatMap Chunk.data = messages.flatMap Message.bytes)
    (hfits : Fits Message.bytes maxHeaderBuf messages held.length
      (chunks.map fun c => c.data.length))
    (hbefore : before.length = held.length) :
    run (onCall lib flowKey) s (chunks.map (Chunk.toward r.direction)) =
      run (recordStamped r) s (stamped Message.bytes (before ++ stamps chunks) messages) >>=
        fun s' => .ok (settled flowKey chunks s') := by
  have hne : ∀ m ∈ messages, m.bytes ≠ [] := fun m hm => (hstable m hm).bytes_ne hr
  induction chunks generalizing messages held before lastTs s with
  | nil =>
    rw [List.flatMap_nil, List.append_nil] at hstream
    obtain rfl := hpending.eq_nil Message.bytes hstream
    rfl
  | cons c chunks ih =>
    rw [List.flatMap_cons, ← List.append_assoc] at hstream
    obtain ⟨done, rest, held', rfl, harrived, hpending'⟩ :=
      exists_cut Message.bytes hne ⟨_, hstream⟩
    rw [harrived, List.append_assoc, List.flatMap_append] at hstream
    have hstream' := List.append_cancel_left hstream
    have hstable' : ∀ m ∈ rest, PrefixStable r.parse m :=
      fun m hm => hstable m (List.mem_append_right done hm)
    have hne' : ∀ m ∈ rest, m.bytes ≠ [] := fun m hm => hne m (List.mem_append_right done hm)
    have hwaits := waits_of_pending hstable' hpending'
    have hlength := congrArg List.length harrived
    rw [List.length_append, List.length_append] at hlength
    obtain ⟨hroom, hfits'⟩ := hfits
    rw [pendingLength_of_pending Message.bytes hpending] at hroom
    rw [hlength] at hfits'
    have hhead : ∀ m ∈ done.head?, before.length < m.bytes.length := by
      intro m hm
      cases done with
      | nil => cases hm
      | cons first done =>
        cases hm
        rw [hbefore]
        exact hpending.2
    obtain ⟨before', hbefore', hstamped⟩ := stamped_chunk Message.bytes c.timestamp (stamps chunks)
      rest c.data.length held'.length (fun m hm => hne m (List.mem_append_left rest hm)) hhead
      (by omega)
    rw [stamps, List.flatMap_cons, ← stamps, hstamped, run_append, run_recordStamped, List.map_cons,
      run_cons, onCall_messages hr hflow (fun m hm => hstable m (List.mem_append_left rest hm))
      hwaits harrived hroom, bind_bind, bind_bind]
    refine bind_congr_ok fun s₁ hs₁ => ?_
    have hlast : chunks = [] → held' = [] := by
      rintro rfl
      rw [List.flatMap_nil, List.append_nil] at hstream'
      obtain rfl := hpending'.eq_nil Message.bytes hstream'
      exact hpending'
    rw [ok_bind, ih _ (by rw [flowOf, SortedMap.get?_insert_self, Option.getD_some]) hstable'
      hpending' hstream' (fits_append Message.bytes hfits') hbefore' hne', run_record_keeps hr,
      bind_bind]
    refine bind_congr_ok fun s₂ hs₂ => ?_
    have hflows : s₂.flows = s.flows := (run_record_flows hr hs₂).trans (recordAll_flows hr hs₁)
    rw [ok_bind, settled_cons hflows hlast]

end Reader

/-! ## What the messages leave -/

/-- After some requests, each recorded at its own time. -/
structure RequestsRecorded (lib : Httparse) (s : HttpAnalyzer)
    (events : List (Message ParsedRequest × UInt32)) (s' : HttpAnalyzer) : Prop where
  methods : ∀ seen, Tallies s.methods seen →
    (seen ++ events.map fun e => e.1.parsed.method).dedup.length ≤ maxMapEntries →
    Tallies s'.methods (seen ++ events.map fun e => e.1.parsed.method)
  hosts : ∀ seen, Tallies s.hosts seen →
    (seen ++ events.filterMap fun e => e.1.parsed.host).dedup.length ≤ maxMapEntries →
    Tallies s'.hosts (seen ++ events.filterMap fun e => e.1.parsed.host)
  uris : s'.uris =
    s.uris ++ (events.map fun e => e.1.parsed.uri).take (maxUris - s.uris.length)
  findings : s'.findings =
    s.findings ++ events.flatMap fun e => requestDetections e.1.parsed e.2
  parseErrors : s'.parseErrors = s.parseErrors
  transactions : s'.transactions = s.transactions

/-- After some responses. -/
structure ResponsesRecorded (s : HttpAnalyzer) (events : List (Message UInt16 × UInt32))
    (s' : HttpAnalyzer) : Prop where
  statusCodes : ∀ seen, Tallies s.statusCodes seen →
    Tallies s'.statusCodes (seen ++ events.map fun e => e.1.parsed)
  transactions : s'.transactions = bump64^[events.length] s.transactions
  parseErrors : s'.parseErrors = s.parseErrors
  findings : s'.findings = s.findings

theorem countMapEntry_tallies {counts : SortedMap String Nat} {seen : List String}
    (h : Tallies counts seen) {dropped : Nat} {key : String}
    (hlimit : (seen ++ [key]).dedup.length ≤ maxMapEntries) {r : SortedMap String Nat × Nat}
    (hr : countMapEntry counts dropped key = .ok r) : Tallies r.1 (seen ++ [key]) := by
  rw [countMapEntry, if_pos (h.accepts hlimit)] at hr
  obtain ⟨counted, hcounted, hr⟩ := bind_eq_ok.mp hr
  cases hr
  obtain ⟨hcount, hmap⟩ := countEntry_eq_ok hcounted
  rw [hmap, hcount]
  exact h.snoc key

theorem countOptional_tallies {counts : SortedMap String Nat} {seen : List String}
    (h : Tallies counts seen) {dropped : Nat} {key : Option String}
    (hlimit : (seen ++ key.toList).dedup.length ≤ maxMapEntries) {r : SortedMap String Nat × Nat}
    (hr : countOptional counts dropped key = .ok r) : Tallies r.1 (seen ++ key.toList) := by
  cases key with
  | none =>
    cases hr
    rw [Option.toList_none, List.append_nil]
    exact h
  | some key => exact countMapEntry_tallies h hlimit hr

theorem take_snoc {α : Type} (uris more : List α) (uri : α) (limit : Nat) :
    (if (uris ++ more.take (limit - uris.length)).length < limit then
        uris ++ more.take (limit - uris.length) ++ [uri]
      else uris ++ more.take (limit - uris.length)) =
      uris ++ (more ++ [uri]).take (limit - uris.length) := by
  rw [List.length_append, List.length_take]
  by_cases hroom : more.length < limit - uris.length
  · rw [if_pos (by omega), List.take_of_length_le (by omega),
      List.take_of_length_le (by rw [List.length_append, List.length_singleton]; omega),
      List.append_assoc]
  · rw [if_neg (by omega), List.take_append_of_le_length (by omega)]

/-- The rule for what recording leaves: true at the start, and kept by every message. -/
theorem run_records {lib : Httparse} {α : Type} {r : Reader α} (hr : Reads lib r)
    (s : HttpAnalyzer) (events : List (Message α × UInt32))
    {P : List (Message α × UInt32) → HttpAnalyzer → Prop} (h₀ : P [] s)
    (hstep : ∀ pre e mid s', P pre mid → recordStamped r mid e = .ok s' → P (pre ++ [e]) s') :
    ReturnsIf (load r.direction s + events.length < 2 ^ 64) (run (recordStamped r) s events)
      (P events) := by
  refine (run_returnsIf_seen (I := fun seen s' =>
    load r.direction s' ≤ load r.direction s + seen.length ∧ P seen s') events ?_ ?_).mono
    fun s' hs' => hs'.2
  · exact ⟨Nat.le_refl _, h₀⟩
  · intro pre e mid hpre ⟨hload, hmid⟩
    have hlength := hpre.length_le
    rw [List.length_append, List.length_singleton] at hlength
    have hrecord := hr.record mid e.2 e.1.parsed
    refine ⟨fun hfew => hrecord.1 (by omega), fun s' hs' => ⟨?_, hstep pre e mid s' hmid hs'⟩⟩
    have hload' := (hrecord.2 s' hs').2.1
    rw [List.length_append, List.length_singleton]
    omega

/-- One more request. -/
theorem RequestsRecorded.snoc {lib : Httparse} {s mid s' : HttpAnalyzer}
    {events : List (Message ParsedRequest × UInt32)} {e : Message ParsedRequest × UInt32}
    (h : RequestsRecorded lib s events mid)
    (hs' : recordStamped (requestReader lib) mid e = .ok s') :
    RequestsRecorded lib s (events ++ [e]) s' := by
  have hrecord : recordRequest mid e.2 e.1.parsed = .ok s' := hs'
  unfold recordRequest at hrecord
  obtain ⟨r₁, hr₁, hrecord⟩ := bind_eq_ok.mp hrecord
  obtain ⟨r₂, hr₂, hrecord⟩ := bind_eq_ok.mp hrecord
  obtain ⟨r₃, hr₃, hrecord⟩ := bind_eq_ok.mp hrecord
  cases hrecord
  constructor
  · intro seen hseen hlimit
    rw [List.map_append, ← List.append_assoc] at hlimit ⊢
    exact countMapEntry_tallies (h.methods seen hseen
      ((dedup_length_mono (List.prefix_append _ _)).trans hlimit)) hlimit hr₁
  · intro seen hseen hlimit
    have hsingle : [e].filterMap (fun e => e.1.parsed.host) = e.1.parsed.host.toList := by
      cases hhost : e.1.parsed.host with
      | none => simp [hhost]
      | some host => simp [hhost]
    rw [List.filterMap_append, ← List.append_assoc, hsingle] at hlimit ⊢
    exact countOptional_tallies (h.hosts seen hseen
      ((dedup_length_mono (List.prefix_append _ _)).trans hlimit)) hlimit hr₂
  · rw [List.map_append]
    simp only [h.uris]
    exact take_snoc _ _ _ _
  · simp only [h.findings, List.flatMap_append, List.flatMap_singleton, List.append_assoc]
  · exact h.parseErrors
  · exact h.transactions

theorem run_requests (lib : Httparse) (s : HttpAnalyzer)
    (events : List (Message ParsedRequest × UInt32)) :
    ReturnsIf (load .clientToServer s + events.length < 2 ^ 64)
      (run (recordStamped (requestReader lib)) s events) (RequestsRecorded lib s events) := by
  refine run_records (requestReader_reads lib) s events ?_ fun pre e mid s' h hs' => h.snoc hs'
  refine ⟨?_, ?_, ?_, ?_, rfl, rfl⟩
  · intro seen hseen _
    simpa using hseen
  · intro seen hseen _
    simpa using hseen
  · simp
  · simp

/-- One more response. -/
theorem ResponsesRecorded.snoc {lib : Httparse} {s mid s' : HttpAnalyzer}
    {events : List (Message UInt16 × UInt32)} {e : Message UInt16 × UInt32}
    (h : ResponsesRecorded s events mid)
    (hs' : recordStamped (responseReader lib) mid e = .ok s') :
    ResponsesRecorded s (events ++ [e]) s' := by
  have hrecord : recordResponse mid e.2 e.1.parsed = .ok s' := hs'
  unfold recordResponse at hrecord
  obtain ⟨r, hr, hrecord⟩ := bind_eq_ok.mp hrecord
  cases hrecord
  obtain ⟨hcount, hmap⟩ := countEntry_eq_ok hr
  constructor
  · intro seen hseen
    rw [List.map_append, ← List.append_assoc, hmap, hcount]
    exact (h.statusCodes seen hseen).snoc e.1.parsed
  · rw [List.length_append, List.length_singleton, Function.iterate_succ_apply', ← h.transactions]
  · exact h.parseErrors
  · exact h.findings

theorem run_responses (lib : Httparse) (s : HttpAnalyzer)
    (events : List (Message UInt16 × UInt32)) :
    ReturnsIf (load .serverToClient s + events.length < 2 ^ 64)
      (run (recordStamped (responseReader lib)) s events) (ResponsesRecorded s events) := by
  refine run_records (responseReader_reads lib) s events ?_ fun pre e mid s' h hs' => h.snoc hs'
  refine ⟨?_, rfl, rfl, rfl⟩
  intro seen hseen
  simpa using hseen

/-! ## Streams -/

/-- The chunks bring the messages, and what is pending leaves room for the next chunk. -/
structure Brings {α : Type} (parse : List UInt8 → Parsed α) (messages : List (Message α))
    (chunks : List Chunk) : Prop where
  stable : ∀ m ∈ messages, PrefixStable parse m
  stream : chunks.flatMap Chunk.data = messages.flatMap Message.bytes
  fits : Fits Message.bytes maxHeaderBuf messages 0 (chunks.map fun c => c.data.length)

/-- The messages, each at the time of the chunk that its last byte is in. -/
abbrev timed {α : Type} (chunks : List Chunk) (messages : List (Message α)) :
    List (Message α × UInt32) := stamped Message.bytes (stamps chunks) messages

theorem run_messages {lib : Httparse} {α : Type} {r : Reader α} (hr : Serves lib r)
    {flowKey : FlowKey} {s : HttpAnalyzer} (hfresh : s.flows.get? flowKey = none)
    {messages : List (Message α)} {chunks : List Chunk} (h : Brings r.parse messages chunks) :
    run (onCall lib flowKey) s (chunks.map (Chunk.toward r.direction)) =
      run (recordStamped r) s (timed chunks messages) >>= fun s' =>
        .ok (settled flowKey chunks s') := by
  have hflow : flowOf s flowKey = holding r.direction [] 0 := by
    rw [flowOf, hfresh, holding_nil]
    rfl
  have hlength : ([] : List UInt32).length = ([] : List UInt8).length := rfl
  refine run_chunks hr chunks s hflow h.stable ?_ h.stream h.fits hlength
  exact pending_nil Message.bytes fun m hm => (h.stable m hm).bytes_ne hr

theorem settled_flow {flowKey : FlowKey} {s : HttpAnalyzer} (hfresh : s.flows.get? flowKey = none)
    (chunks : List Chunk) (dir : Direction) :
    (flowOf (settled flowKey chunks s) flowKey).side dir = {} := by
  rw [settled, flowOf]
  cases chunks.getLast? with
  | none =>
    simp only [hfresh]
    cases dir <;> rfl
  | some c =>
    simp only [SortedMap.get?_insert_self]
    cases dir <;> rfl

/-- What the chunks leave is what recording the messages leaves. -/
structure Pipelined (lib : Httparse) {α : Type} (r : Reader α) (flowKey : FlowKey)
    (s : HttpAnalyzer) (messages : List (Message α)) (chunks : List Chunk)
    (Recorded : List (Message α × UInt32) → HttpAnalyzer → Prop) : Prop where
  run_eq : run (onCall lib flowKey) s (chunks.map (Chunk.toward r.direction)) =
    run (recordStamped r) s (timed chunks messages) >>= fun s' => .ok (settled flowKey chunks s')
  in_order : (timed chunks messages).map Prod.fst = messages
  leaves : ReturnsIf (load r.direction s + messages.length < 2 ^ 64)
    (run (onCall lib flowKey) s (chunks.map (Chunk.toward r.direction))) fun s' =>
      Recorded (timed chunks messages) s' ∧ ∀ dir, (flowOf s' flowKey).side dir = {}

theorem pipelined {lib : Httparse} {α : Type} {r : Reader α} (hr : Serves lib r)
    {flowKey : FlowKey} {s : HttpAnalyzer} (hfresh : s.flows.get? flowKey = none)
    {messages : List (Message α)} {chunks : List Chunk} (h : Brings r.parse messages chunks)
    {Recorded : List (Message α × UInt32) → HttpAnalyzer → Prop}
    (hkeeps : ∀ events s' flows, Recorded events s' → Recorded events { s' with flows := flows })
    (hrecorded : ∀ events, ReturnsIf (load r.direction s + events.length < 2 ^ 64)
      (run (recordStamped r) s events) (Recorded events)) :
    Pipelined lib r flowKey s messages chunks Recorded := by
  have hrun := run_messages hr hfresh h
  have horder := map_fst_stamped Message.bytes (stamps chunks) messages
  have hlength : (timed chunks messages).length = messages.length := by
    rw [← List.length_map Prod.fst, horder]
  refine ⟨hrun, horder, ?_⟩
  rw [hrun, ← hlength]
  have hall := (hrecorded (timed chunks messages)).and
    ⟨(hrecorded (timed chunks messages)).1, fun s' hs' => run_record_flows hr hs'⟩
  refine hall.bind fun s' ⟨hs', hflows⟩ => .pure ⟨?_, settled_flow (hflows ▸ hfresh) chunks⟩
  unfold settled
  cases chunks.getLast? with
  | none => exact hs'
  | some c => exact hkeeps _ _ _ hs'

section Fresh

variable (lib : Httparse) (flowKey : FlowKey) (s : HttpAnalyzer)
  (hfresh : s.flows.get? flowKey = none) (chunks : List Chunk)
include hfresh

theorem requests_pipelined (messages : List (Message ParsedRequest))
    (h : Brings (parseOneRequest lib) messages chunks) :
    Pipelined lib (requestReader lib) flowKey s messages chunks (RequestsRecorded lib s) := by
  refine pipelined (requestReader_serves lib) hfresh h ?_ (run_requests lib s)
  exact fun events s' flows hs' => ⟨hs'.methods, hs'.hosts, hs'.uris, hs'.findings,
    hs'.parseErrors, hs'.transactions⟩

theorem responses_pipelined (messages : List (Message UInt16))
    (h : Brings (parseOneResponse lib) messages chunks) :
    Pipelined lib (responseReader lib) flowKey s messages chunks (ResponsesRecorded s) := by
  refine pipelined (responseReader_serves lib) hfresh h ?_ (run_responses lib s)
  exact fun events s' flows hs' => ⟨hs'.statusCodes, hs'.transactions, hs'.parseErrors,
    hs'.findings⟩

/-- However the messages are cut into chunks, each of them is recorded once, in order and at the
time of the chunk that completes it, no parse error is counted and the buffer ends empty. -/
theorem run_pipelined :
    (∀ messages, Brings (parseOneRequest lib) messages chunks →
      Pipelined lib (requestReader lib) flowKey s messages chunks (RequestsRecorded lib s)) ∧
    ∀ messages, Brings (parseOneResponse lib) messages chunks →
      Pipelined lib (responseReader lib) flowKey s messages chunks (ResponsesRecorded s) :=
  ⟨requests_pipelined lib flowKey s hfresh chunks, responses_pipelined lib flowKey s hfresh chunks⟩

end Fresh

/-- A message is an empty line. -/
def lineParser : Httparse where
  request := fun buf =>
    if [0x0d, 0x0a] <+: buf then .ok (some (2, ⟨some "GET", some "/", some 0, []⟩)) else .ok none
  response := fun buf => if [0x0d, 0x0a] <+: buf then .ok (some (2, ⟨some 200⟩)) else .ok none
  request_bounds := fun {buf n raw} h => by
    split at h
    · rename_i hline
      cases h
      exact ⟨by decide, hline.length_le⟩
    · cases h
  response_bounds := fun {buf n raw} h => by
    split at h
    · rename_i hline
      cases h
      exact ⟨by decide, hline.length_le⟩
    · cases h

def lineRequest : Message ParsedRequest := ⟨[0x0d, 0x0a], ⟨"GET", "/", 0, none, none⟩⟩

def lineResponse : Message UInt16 := ⟨[0x0d, 0x0a], 200⟩

theorem line_waits {front : List UInt8} (hpre : front <+: [0x0d, 0x0a])
    (hne : front ≠ [0x0d, 0x0a]) : ¬ [0x0d, 0x0a] <+: front :=
  fun h => hne (List.IsPrefix.eq_of_length_le hpre h.length_le)

theorem lineRequest_stable : PrefixStable (parseOneRequest lineParser) lineRequest where
  complete := fun rest => by
    rw [parseOneRequest, lineParser, lineRequest]
    simp only
    rw [if_pos (List.prefix_append _ _)]
    rfl
  waits := fun front hpre _ hne => by
    rw [parseOneRequest, lineParser]
    simp only
    rw [if_neg (line_waits hpre hne)]
    rfl

theorem lineResponse_stable : PrefixStable (parseOneResponse lineParser) lineResponse where
  complete := fun rest => by
    rw [parseOneResponse, lineParser, lineResponse]
    simp only
    rw [if_pos (List.prefix_append _ _)]
    rfl
  waits := fun front hpre _ hne => by
    rw [parseOneResponse, lineParser]
    simp only
    rw [if_neg (line_waits hpre hne)]
    rfl

/-- A line that is cut in two, and another. -/
def cutLines : List Chunk := [⟨[0x0d], 1⟩, ⟨[0x0a, 0x0d, 0x0a], 2⟩]

theorem run_pipelined_lines :
    Pipelined lineParser (requestReader lineParser) webKey .new [lineRequest, lineRequest] cutLines
        (RequestsRecorded lineParser .new) ∧
      Pipelined lineParser (responseReader lineParser) webKey .new [lineResponse, lineResponse]
        cutLines (ResponsesRecorded .new) :=
  ⟨(run_pipelined lineParser webKey .new rfl cutLines).1 _
      ⟨by simpa using lineRequest_stable, rfl, by decide, by decide, trivial⟩,
    (run_pipelined lineParser webKey .new rfl cutLines).2 _
      ⟨by simpa using lineResponse_stable, rfl, by decide, by decide, trivial⟩⟩

/-- One chunk of `n` lines. -/
def manyLines (n : Nat) : Chunk := ⟨(List.replicate n lineRequest).flatMap Message.bytes, 0⟩

theorem brings_manyLines {n : Nat} (h : 2 * n ≤ maxHeaderBuf) :
    Brings (parseOneRequest lineParser) (List.replicate n lineRequest) [manyLines n] where
  stable := by
    intro m hm
    rw [List.eq_of_mem_replicate hm]
    exact lineRequest_stable
  stream := by rw [List.flatMap_singleton, manyLines]
  fits := by
    refine ⟨?_, trivial⟩
    have hpending : pendingLength Message.bytes (List.replicate n lineRequest) 0 = 0 := by
      cases n with
      | zero => rfl
      | succ n => rfl
    have hlength : (manyLines n).data.length = 2 * n := by
      rw [manyLines, List.length_flatMap, List.map_replicate, List.sum_replicate_nat, Nat.mul_comm]
      rfl
    simp only [hpending, hlength, Nat.zero_add]
    exact h

/-- The 10,001st request leaves no URI. -/
theorem uris_stop :
    Brings (parseOneRequest lineParser) (List.replicate 10001 lineRequest) [manyLines 10001] ∧
    ∃ s', run (onCall lineParser webKey) .new
        ([manyLines 10001].map (Chunk.toward .clientToServer)) = .ok s' ∧ s'.uris.length = 10000 := by
  have hbrings : Brings _ _ [manyLines 10001] := brings_manyLines (by decide)
  refine ⟨hbrings, ?_⟩
  have hleaves := (requests_pipelined lineParser webKey .new rfl _ _ hbrings).leaves
  obtain ⟨s', hrun, hrecorded, -⟩ := hleaves.returns (by rw [List.length_replicate]; decide)
  refine ⟨s', hrun, ?_⟩
  have horder := congrArg List.length (map_fst_stamped Message.bytes (stamps [manyLines 10001])
    (List.replicate 10001 lineRequest))
  rw [List.length_map, List.length_replicate] at horder
  rw [hrecorded.uris, List.length_append, List.length_take, List.length_map, horder]
  rfl

end Wirerust.Http
