import Wirerust.Analyzer.TlsRecords

/-!
TLS handshakes in one direction, whatever they are cut into.

Messages are cut into the payloads of records, and the records into calls. Between two calls, what
is kept and what is still to come can be read to its end, as records and then as messages
(`Midway`), so that neither of the two buffers is ever stuck or full. In the end the parser has been
handed the hellos, whole and in order, and nothing is left (`run_reassembles`).
-/

namespace Wirerust.Tls

open Lib Wirerust.Flow Wirerust.Analyzer

/-! ## On the wire -/

structure Message where
  msgType : UInt8
  body : List UInt8

def Message.bytes (m : Message) : List UInt8 :=
  m.msgType :: UInt8.ofNat (m.body.length / 65536) :: UInt8.ofNat (m.body.length / 256) ::
    UInt8.ofNat m.body.length :: m.body

structure Record where
  contentType : UInt8
  major : UInt8
  minor : UInt8
  payload : List UInt8

def Record.bytes (r : Record) : List UInt8 :=
  r.contentType :: r.major :: r.minor :: UInt8.ofNat (r.payload.length / 256) ::
    UInt8.ofNat r.payload.length :: r.payload

theorem Message.whole {m : Message} (h : m.bytes.length ≤ 47104) : messageHeader.Whole m.bytes := by
  have hlen : m.bytes.length = 4 + m.body.length := Nat.add_comm _ 4
  have hbody : bodyLen m.bytes = m.body.length := by
    show 65536 * (UInt8.ofNat (m.body.length / 65536)).toNat +
      256 * (UInt8.ofNat (m.body.length / 256)).toNat + (UInt8.ofNat m.body.length).toNat = _
    simp only [UInt8.toNat_ofNat']
    omega
  refine ⟨?_, ?_, ?_⟩
  · show 4 ≤ m.bytes.length
    omega
  · show bodyLen m.bytes ≤ maxBuf
    rw [hbody, maxBuf]
    omega
  · show m.bytes.length = 4 + bodyLen m.bytes
    rw [hlen, hbody]

theorem Record.whole {r : Record} (h : r.payload.length ≤ 18432) : recordHeader.Whole r.bytes := by
  have hlen : r.bytes.length = 5 + r.payload.length := Nat.add_comm _ 5
  have hbody : payloadLen r.bytes = r.payload.length := by
    show (UInt16.ofNat (256 * (UInt8.ofNat (r.payload.length / 256)).toNat +
      (UInt8.ofNat r.payload.length).toNat)).toNat = _
    simp only [UInt8.toNat_ofNat', UInt16.toNat_ofNat']
    omega
  refine ⟨?_, ?_, ?_⟩
  · show 5 ≤ r.bytes.length
    omega
  · show payloadLen r.bytes ≤ maxRecordPayload
    rw [hbody]
    exact h
  · show r.bytes.length = 5 + payloadLen r.bytes
    rw [hlen, hbody]

/-- What the handshake records bring. -/
def handshakeBytes (records : List (List UInt8)) : List UInt8 :=
  ((records.filter isHandshake).map recordPayload).flatten

theorem handshakeBytes_wire (records : List Record) :
    handshakeBytes (records.map Record.bytes) =
      ((records.filter fun r => r.contentType = 0x16).map Record.payload).flatten := by
  rw [handshakeBytes, List.filter_map, List.map_map]
  rfl

theorem filter_wire (dir : Direction) (messages : List Message) :
    (messages.map Message.bytes).filter (isHello dir) =
      (messages.filter fun m => m.msgType = expectedMsgType dir).map Message.bytes := by
  rw [List.filter_map]
  rfl

/-! ## Records of a stream that can be read to its end -/

theorem drained_complete {carry more : List UInt8} {messages : List (List UInt8)}
    (hread : readMessages (carry ++ more) = (messages, [])) :
    ∃ later, messages = (drained carry).messages ++ later ∧ (drained carry).overflows = 0 ∧
      readMessages ((drained carry).carry ++ more) = (later, []) := by
  obtain ⟨later, hmessages, hlater⟩ := Headed.complete_append hread
  have hdrained : drained carry = ⟨(readMessages carry).1, 0, (readMessages carry).2⟩ :=
    if_neg (Headed.not_stuck hlater)
  rw [hdrained]
  exact ⟨later, hmessages, rfl, hlater⟩

theorem takeRecord_complete {carry record more : List UInt8} {messages : List (List UInt8)}
    (hwait : messageHeader.Waiting carry)
    (hpayload : (recordPayload record).length ≤ maxRecordPayload)
    (hread : readMessages (carry ++ (handshakeBytes [record] ++ more)) = (messages, []))
    (hlen : ∀ m ∈ messages, m.length ≤ 47104) :
    ∃ later, messages = (takeRecord carry record).messages ++ later ∧
      (takeRecord carry record).overflows = 0 ∧
      messageHeader.Waiting (takeRecord carry record).carry ∧
      readMessages ((takeRecord carry record).carry ++ more) = (later, []) := by
  unfold takeRecord
  cases hkind : isHandshake record with
  | false =>
    rw [handshakeBytes, List.filter_cons_of_neg (by simp [hkind])] at hread
    exact ⟨messages, rfl, rfl, hwait, hread⟩
  | true =>
    have hbytes : handshakeBytes [record] = recordPayload record := by
      rw [handshakeBytes, List.filter_cons_of_pos hkind]
      exact List.append_nil _
    -- the carry is less than a message, so there is room for the payload
    have hcarry := Headed.length_waiting hread hwait (by decide) hlen
    have hroom : ¬carry.length + (recordPayload record).length > maxBuf := by
      simp only [maxRecordPayload, maxBuf] at hpayload ⊢
      omega
    rw [if_neg Bool.noConfusion, if_neg hroom]
    rw [hbytes, ← List.append_assoc] at hread
    obtain ⟨later, hmessages, hover, hlater⟩ := drained_complete hread
    exact ⟨later, hmessages, hover, drained_waiting _, hlater⟩

theorem handshakeBytes_append (records records' : List (List UInt8)) :
    handshakeBytes (records ++ records') = handshakeBytes records ++ handshakeBytes records' := by
  rw [handshakeBytes, handshakeBytes, handshakeBytes, ← List.flatten_append, ← List.map_append,
    ← List.filter_append]

theorem takeRecords_complete {carry more : List UInt8} {records messages : List (List UInt8)}
    (hwait : messageHeader.Waiting carry)
    (hpayloads : ∀ r ∈ records, (recordPayload r).length ≤ maxRecordPayload)
    (hread : readMessages (carry ++ (handshakeBytes records ++ more)) = (messages, []))
    (hlen : ∀ m ∈ messages, m.length ≤ 47104) :
    ∃ later, messages = (takeRecords carry records).messages ++ later ∧
      (takeRecords carry records).overflows = 0 ∧
      messageHeader.Waiting (takeRecords carry records).carry ∧
      readMessages ((takeRecords carry records).carry ++ more) = (later, []) := by
  induction records generalizing carry messages with
  | nil => exact ⟨messages, rfl, rfl, hwait, hread⟩
  | cons record records ih =>
    rw [← List.singleton_append, handshakeBytes_append, List.append_assoc] at hread
    obtain ⟨later, hfirst, hover, hwait₁, hread₁⟩ :=
      takeRecord_complete hwait (hpayloads record (List.mem_cons_self ..)) hread hlen
    obtain ⟨later', hlater, hover', hwait', hread'⟩ :=
      ih hwait₁ (fun r hr => hpayloads r (List.mem_cons_of_mem _ hr)) hread₁ fun m hm =>
        hlen m (by rw [hfirst]; exact List.mem_append_right _ hm)
    refine ⟨later', ?_, ?_, hwait', hread'⟩
    · rw [hfirst, hlater, ← List.append_assoc]
      rfl
    · simp only [takeRecords, hover, hover']

theorem leftOver_complete {buf more : List UInt8} {records : List (List UInt8)}
    (hread : readRecords (buf ++ more) = (records, [])) :
    ∃ later, records = (readRecords buf).1 ++ later ∧ oversized buf = 0 ∧
      readRecords (leftOver buf ++ more) = (later, []) := by
  obtain ⟨later, hrecords, hlater⟩ := Headed.complete_append hread
  have hfree := Headed.not_stuck hlater
  refine ⟨later, hrecords, if_neg hfree, ?_⟩
  rw [leftOver, if_neg hfree]
  exact hlater

/-! ## Calls -/

/-- The counters of what has been lost. -/
def losses (s : TlsAnalyzer) : Nat × Nat × Nat :=
  (s.handshakeReassemblyOverflows, s.truncatedRecords, s.bufferSaturationDrops)

/-- `stream` is still to come; in the end the parser will have been handed `handed`. -/
structure Midway (flowKey : FlowKey) (dir : Direction) (handed : List (List UInt8))
    (stream : List UInt8) (s : TlsAnalyzer) : Prop where
  alone : ∀ other, other ≠ dir → ((flowOf s flowKey).side other).helloSeen = false
  buf : recordHeader.Waiting ((flowOf s flowKey).side dir).buf
  carry : messageHeader.Waiting ((flowOf s flowKey).side dir).hsCarry
  ahead : ∃ records messages,
    readRecords (((flowOf s flowKey).side dir).buf ++ stream) = (records, []) ∧
    (∀ r ∈ records, (recordPayload r).length ≤ maxRecordPayload) ∧
    readMessages (((flowOf s flowKey).side dir).hsCarry ++ handshakeBytes records) =
      (messages, []) ∧
    (∀ m ∈ messages, m.length ≤ 47104) ∧
    s.handed ++ messages.filter (isHello dir) = handed

theorem not_done {flow : TlsFlowState} {dir : Direction}
    (h : ∀ other, other ≠ dir → (flow.side other).helloSeen = false) : flow.done = false := by
  unfold TlsFlowState.done
  cases dir with
  | clientToServer =>
    have hserver : flow.server.helloSeen = false := h .serverToClient nofun
    rw [hserver, Bool.and_false]
  | serverToClient =>
    have hclient : flow.client.helloSeen = false := h .clientToServer nofun
    rw [hclient, Bool.false_and]

theorem onData_midway (lib : TlsParser) {flowKey : FlowKey} {dir : Direction}
    {handed : List (List UInt8)} {data stream : List UInt8} {s : TlsAnalyzer}
    (h : Midway flowKey dir handed (data ++ stream) s) (hdata : data.length ≤ 47000)
    (timestamp : UInt32) :
    ReturnsIf (load s + ((flowOf s flowKey).side dir).pending + data.length < 2 ^ 64)
      (onData lib s flowKey dir data timestamp)
      (fun s' => Midway flowKey dir handed stream s' ∧ losses s' = losses s ∧
        load s' + ((flowOf s' flowKey).side dir).pending ≤
          load s + ((flowOf s flowKey).side dir).pending + data.length) := by
  obtain ⟨halone, hbuf, hcarry, records, messages, hrecords, hpayloads, hmessages, hlen,
    hhanded⟩ := h
  refine (onData_called lib s flowKey dir data timestamp (not_done halone)).mono fun s' hs' => ?_
  have hroom := room_of_waiting hbuf (Nat.le_trans hdata (by decide))
  obtain ⟨hhanded', hover, hcarry', hbuf', htruncated, hdrops, hother, -, hload⟩ := hs'
  generalize (flowOf s flowKey).side dir = side at *
  rw [side.append_of_le hroom] at hhanded' hover hcarry' hbuf' htruncated
  rw [← List.append_assoc] at hrecords
  obtain ⟨laterRecords, hsplit, hsmall, hrecords'⟩ := leftOver_complete hrecords
  rw [hsplit, handshakeBytes_append] at hmessages
  obtain ⟨laterMessages, hsplit', hfits, hcarryWaits, hmessages'⟩ :=
    takeRecords_complete hcarry
      (fun r hr => hpayloads r (by rw [hsplit]; exact List.mem_append_left _ hr)) hmessages hlen
  rw [hfits] at hover
  rw [hsmall] at htruncated
  refine ⟨⟨fun other hne => ?_, ?_, ?_, laterRecords, laterMessages, ?_, fun r hr => ?_, ?_,
    fun m hm => ?_, ?_⟩, ?_, hload⟩
  · rw [hother other hne]
    exact halone other hne
  · rw [hbuf']
    exact leftOver_waiting _
  · rw [hcarry']
    exact hcarryWaits
  · rw [hbuf']
    exact hrecords'
  · exact hpayloads r (by rw [hsplit]; exact List.mem_append_right _ hr)
  · rw [hcarry']
    exact hmessages'
  · exact hlen m (by rw [hsplit']; exact List.mem_append_right _ hm)
  · rw [← hhanded, hhanded', hsplit', List.filter_append, List.append_assoc]
  · rw [losses, losses, hover, htruncated, hdrops, if_neg (Nat.not_lt_of_le hroom)]
    rfl

/-- Data of the direction, with its timestamp. -/
abbrev Chunk := List UInt8 × UInt32

def onChunk (lib : TlsParser) (flowKey : FlowKey) (dir : Direction) (s : TlsAnalyzer)
    (chunk : Chunk) : Checked TlsAnalyzer := onData lib s flowKey dir chunk.1 chunk.2

theorem run_midway (lib : TlsParser) {flowKey : FlowKey} {dir : Direction}
    {handed : List (List UInt8)} {s : TlsAnalyzer} (chunks : List Chunk)
    (h : Midway flowKey dir handed (chunks.map Prod.fst).flatten s)
    (hchunks : ∀ c ∈ chunks, c.1.length ≤ 47000) :
    ReturnsIf (load s + ((flowOf s flowKey).side dir).pending +
        (chunks.map Prod.fst).flatten.length < 2 ^ 64)
      (run (onChunk lib flowKey dir) s chunks)
      (fun s' => Midway flowKey dir handed [] s' ∧ losses s' = losses s) := by
  induction chunks generalizing s with
  | nil => exact .pure ⟨h, rfl⟩
  | cons chunk chunks ih =>
    rw [List.map_cons, List.flatten_cons] at h
    rw [run_cons, List.map_cons, List.flatten_cons, List.length_append]
    have hfirst := onData_midway lib h (hchunks chunk (List.mem_cons_self ..)) chunk.2
    refine (hfirst.imp (by omega)).bind fun s₁ hs₁ => ?_
    obtain ⟨hmidway, hlosses, hload⟩ := hs₁
    have hlater := ih hmidway fun c hc => hchunks c (List.mem_cons_of_mem _ hc)
    refine (hlater.imp fun hroom => ?_).mono fun s' hs' => ⟨hs'.1, hs'.2.trans hlosses⟩
    omega

theorem midway_start {flowKey : FlowKey} {dir : Direction} {s : TlsAnalyzer}
    (hbuf : ((flowOf s flowKey).side dir).buf = [])
    (hcarry : ((flowOf s flowKey).side dir).hsCarry = [])
    (hother : ∀ other, other ≠ dir → ((flowOf s flowKey).side other).helloSeen = false)
    {messages : List Message} (hmessages : ∀ m ∈ messages, m.bytes.length ≤ 47104)
    {records : List Record} (hrecords : ∀ r ∈ records, r.payload.length ≤ 18432)
    (hpayloads : ((records.filter fun r => r.contentType = 0x16).map Record.payload).flatten =
      (messages.map Message.bytes).flatten) :
    Midway flowKey dir
      (s.handed ++ (messages.filter fun m => m.msgType = expectedMsgType dir).map Message.bytes)
      (records.map Record.bytes).flatten s where
  alone := hother
  buf := by
    rw [hbuf]
    exact Headed.waiting_nil
  carry := by
    rw [hcarry]
    exact Headed.waiting_nil
  ahead := by
    refine ⟨records.map Record.bytes, messages.map Message.bytes, ?_, ?_, ?_, ?_, ?_⟩
    · rw [hbuf, List.nil_append]
      refine Headed.lex_flatten fun frame hframe => ?_
      obtain ⟨r, hr, rfl⟩ := List.mem_map.mp hframe
      exact Record.whole (hrecords r hr)
    · intro frame hframe
      obtain ⟨r, hr, rfl⟩ := List.mem_map.mp hframe
      exact hrecords r hr
    · rw [hcarry, List.nil_append, handshakeBytes_wire, hpayloads]
      refine Headed.lex_flatten fun frame hframe => ?_
      obtain ⟨m, hm, rfl⟩ := List.mem_map.mp hframe
      exact Message.whole (hmessages m hm)
    · intro frame hframe
      obtain ⟨m, hm, rfl⟩ := List.mem_map.mp hframe
      exact hmessages m hm
    · rw [filter_wire]

/-- Nothing is left at the end of the stream. -/
theorem Midway.finish {flowKey : FlowKey} {dir : Direction} {handed : List (List UInt8)}
    {s : TlsAnalyzer} (h : Midway flowKey dir handed [] s) :
    s.handed = handed ∧ ((flowOf s flowKey).side dir).buf = [] ∧
      ((flowOf s flowKey).side dir).hsCarry = [] := by
  obtain ⟨-, hbuf, hcarry, records, messages, hrecords, -, hmessages, -, hhanded⟩ := h
  rw [List.append_nil] at hrecords
  obtain ⟨hnil, rfl⟩ := Headed.complete_nil (Headed.head_of_waiting hbuf) hrecords
  have hnone : handshakeBytes [] = [] := rfl
  rw [hnone, List.append_nil] at hmessages
  obtain ⟨hnil', rfl⟩ := Headed.complete_nil (Headed.head_of_waiting hcarry) hmessages
  rw [List.filter_nil, List.append_nil] at hhanded
  exact ⟨hhanded, hnil, hnil'⟩

/-- However the messages are cut into handshake records, whatever stands between these, and however
the records are cut into calls, the parser is handed the hellos of the direction, whole and in
order; nothing is lost and nothing is left. -/
theorem run_reassembles (lib : TlsParser) (flowKey : FlowKey) (dir : Direction) (s₀ : TlsAnalyzer)
    (hbuf : ((flowOf s₀ flowKey).side dir).buf = [])
    (hcarry : ((flowOf s₀ flowKey).side dir).hsCarry = [])
    (hother : ∀ other, other ≠ dir → ((flowOf s₀ flowKey).side other).helloSeen = false)
    (messages : List Message) (hmessages : ∀ m ∈ messages, m.bytes.length ≤ 47104)
    (records : List Record) (hrecords : ∀ r ∈ records, r.payload.length ≤ 18432)
    (hpayloads : ((records.filter fun r => r.contentType = 0x16).map Record.payload).flatten =
      (messages.map Message.bytes).flatten)
    (chunks : List Chunk) (hchunks : ∀ c ∈ chunks, c.1.length ≤ 47000)
    (hstream : (chunks.map Prod.fst).flatten = (records.map Record.bytes).flatten) :
    (load s₀ + (chunks.map Prod.fst).flatten.length < 2 ^ 64 →
      ∃ s, run (onChunk lib flowKey dir) s₀ chunks = .ok s) ∧
    ∀ s, run (onChunk lib flowKey dir) s₀ chunks = .ok s →
      s.handed = s₀.handed ++
        (messages.filter fun m => m.msgType = expectedMsgType dir).map Message.bytes ∧
      s.handshakeReassemblyOverflows = s₀.handshakeReassemblyOverflows ∧
      s.truncatedRecords = s₀.truncatedRecords ∧
      s.bufferSaturationDrops = s₀.bufferSaturationDrops ∧
      ((flowOf s flowKey).side dir).buf = [] ∧ ((flowOf s flowKey).side dir).hsCarry = [] := by
  have hstart := midway_start hbuf hcarry hother hmessages hrecords hpayloads
  rw [← hstream] at hstart
  obtain ⟨hreturns, hkeeps⟩ := run_midway lib chunks hstart hchunks
  have hempty : ((flowOf s₀ flowKey).side dir).pending = 0 := by
    rw [Side.pending, hbuf, hcarry]
    rfl
  refine ⟨fun hroom => hreturns (by omega), fun s hs => ?_⟩
  obtain ⟨hmidway, hlosses⟩ := hkeeps s hs
  obtain ⟨hhanded, hnil, hnil'⟩ := hmidway.finish
  simp only [losses, Prod.mk.injEq] at hlosses
  exact ⟨hhanded, hlosses.1, hlosses.2.1, hlosses.2.2, hnil, hnil'⟩

/-! ## A hello in two records -/

def httpsKey : FlowKey := .new (.v4 1) 1024 (.v4 2) 443

/-- The parser where it finds no hello. -/
def noHello : TlsParser where
  messageHandshake := fun _ => none
  extensions := fun _ => none
  cipherSuiteName := fun _ => none
  md5 := fun _ => []

/-- A ClientHello too short to be one, and an empty certificate request. -/
def splitMessages : List Message := [⟨1, [7]⟩, ⟨13, []⟩]

def splitRecords : List Record :=
  [⟨0x16, 3, 1, [1, 0]⟩, ⟨0x15, 3, 1, [2, 40]⟩, ⟨0x16, 3, 1, [0, 1, 7, 13, 0, 0, 0]⟩]

def splitChunks : List Chunk :=
  [([0x16, 3, 1, 0], 0), ([2, 1, 0, 0x15, 3, 1, 0, 2, 2], 1),
    ([40, 0x16, 3, 1, 0, 7, 0, 1, 7, 13, 0, 0, 0], 2)]

theorem run_reassembles_split :
    ∃ s, run (onChunk noHello httpsKey .clientToServer) .new splitChunks = .ok s ∧
      s.handed = [[1, 0, 0, 1, 7]] ∧ s.handshakeReassemblyOverflows = 0 ∧
      s.truncatedRecords = 0 ∧ s.bufferSaturationDrops = 0 ∧
      (flowOf s httpsKey).client.buf = [] ∧ (flowOf s httpsKey).client.hsCarry = [] := by
  obtain ⟨hreturns, hall⟩ := run_reassembles noHello httpsKey .clientToServer .new rfl rfl
    (by intro other hne; cases other <;> rfl) splitMessages (by decide) splitRecords (by decide)
    (by decide) splitChunks (by decide) (by decide)
  obtain ⟨s, hs⟩ := hreturns (by decide)
  obtain ⟨hhanded, hover, htruncated, hdrops, hbuf, hcarry⟩ := hall s hs
  exact ⟨s, hs, hhanded, hover, htruncated, hdrops, hbuf, hcarry⟩

end Wirerust.Tls
