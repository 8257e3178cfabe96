import Wirerust.Lib.Headed
import Wirerust.Analyzer.Tls

/-!
TLS records and the messages in them.

Records and messages begin with a header that says how long they are, so that both loops of the
analyzer read frames off the front of a buffer (`drainCarry_hands`, `tryParseRecords_parses`). What
a call does to its direction is given by the records it completes (`onData_called`). From this the
buffers of every flow stay bounded over all runs, and no call is cut short that brings at most
47,099 bytes (`run_buffers_bounded`).
-/

namespace Wirerust.Tls

open Lib Wirerust.Flow Wirerust.Analyzer

/-! ## Headers -/

theorem payloadLen_append {buf : List UInt8} (h : 5 ≤ buf.length) (more : List UInt8) :
    payloadLen (buf ++ more) = payloadLen buf := by
  rw [payloadLen, payloadLen, byteAt_append (by omega), byteAt_append (by omega)]

theorem bodyLen_append {carry : List UInt8} (h : 4 ≤ carry.length) (more : List UInt8) :
    bodyLen (carry ++ more) = bodyLen carry := by
  rw [bodyLen, bodyLen, byteAt_append (by omega), byteAt_append (by omega),
    byteAt_append (by omega)]

def recordHeader : Headed UInt8 where
  header := 5
  header_pos := by decide
  limit := maxRecordPayload
  body := payloadLen
  body_append := payloadLen_append

def messageHeader : Headed UInt8 where
  header := 4
  header_pos := by decide
  limit := maxBuf
  body := bodyLen
  body_append := bodyLen_append

abbrev readRecords (buf : List UInt8) : List (List UInt8) × List UInt8 :=
  recordHeader.lexer.lex buf

abbrev readMessages (carry : List UInt8) : List (List UInt8) × List UInt8 :=
  messageHeader.lexer.lex carry

/-! ## Sides -/

section Sides

variable (flow : TlsFlowState) (dir : Direction)

theorem side_setSide (side : Side) : (flow.setSide dir side).side dir = side := by
  cases dir with
  | clientToServer => rfl
  | serverToClient => rfl

theorem side_setSide_of_ne (side : Side) {other : Direction} (h : other ≠ dir) :
    (flow.setSide dir side).side other = flow.side other := by
  refine Direction.ne_cases ?_ ?_ h
  · rfl
  · rfl

theorem side_lastTs (timestamp : UInt32) :
    ({ flow with lastTs := timestamp } : TlsFlowState).side dir = flow.side dir := by
  cases dir with
  | clientToServer => rfl
  | serverToClient => rfl

end Sides

/-! ## Hellos -/

/-- The largest total of a map that hellos are counted in. -/
def load (s : TlsAnalyzer) : Nat :=
  max (countsTotal s.versionCounts) (max (countsTotal s.sniCounts) (max (countsTotal s.ja3Counts)
    (max (countsTotal s.ja3sCounts) (countsTotal s.cipherCounts))))

/-- What a hello leaves alone. -/
structure Untouched (s s' : TlsAnalyzer) : Prop where
  flows : s'.flows = s.flows
  truncated : s'.truncatedRecords = s.truncatedRecords
  overflows : s'.handshakeReassemblyOverflows = s.handshakeReassemblyOverflows
  drops : s'.bufferSaturationDrops = s.bufferSaturationDrops
  handed : s'.handed = s.handed

theorem increment_total {κ : Type} [LinearOrder κ] (counts : SortedMap κ Nat) (key : κ)
    (limit dropped : Nat) :
    ReturnsIf (countsTotal counts + 1 < 2 ^ 64) (increment counts key limit dropped)
      (fun r => countsTotal r.1 ≤ countsTotal counts + 1) := by
  unfold increment
  split
  · exact (countEntry_total 64 counts key).bind fun r hr => .pure (Nat.le_of_eq hr)
  · exact .pure (Nat.le_succ _)

section Counts

variable (s : TlsAnalyzer)

theorem countVersion_total (version : UInt16) :
    ReturnsIf (countsTotal s.versionCounts + 1 < 2 ^ 64) (countVersion s version) (fun s' =>
      ∃ counts dropped, s' = { s with versionCounts := counts, droppedMapEntries := dropped } ∧
        countsTotal counts ≤ countsTotal s.versionCounts + 1) :=
  (increment_total _ _ _ _).bind fun r hr => .pure ⟨r.1, r.2, rfl, hr⟩

theorem countSni_total (key : String) :
    ReturnsIf (countsTotal s.sniCounts + 1 < 2 ^ 64) (countSni s key) (fun s' =>
      ∃ counts dropped, s' = { s with sniCounts := counts, droppedMapEntries := dropped } ∧
        countsTotal counts ≤ countsTotal s.sniCounts + 1) :=
  (increment_total _ _ _ _).bind fun r hr => .pure ⟨r.1, r.2, rfl, hr⟩

theorem countJa3_total (hash : String) :
    ReturnsIf (countsTotal s.ja3Counts + 1 < 2 ^ 64) (countJa3 s hash) (fun s' =>
      ∃ counts dropped, s' = { s with ja3Counts := counts, droppedMapEntries := dropped } ∧
        countsTotal counts ≤ countsTotal s.ja3Counts + 1) :=
  (increment_total _ _ _ _).bind fun r hr => .pure ⟨r.1, r.2, rfl, hr⟩

theorem countJa3s_total (hash : String) :
    ReturnsIf (countsTotal s.ja3sCounts + 1 < 2 ^ 64) (countJa3s s hash) (fun s' =>
      ∃ counts dropped, s' = { s with ja3sCounts := counts, droppedMapEntries := dropped } ∧
        countsTotal counts ≤ countsTotal s.ja3sCounts + 1) :=
  (increment_total _ _ _ _).bind fun r hr => .pure ⟨r.1, r.2, rfl, hr⟩

theorem countCipher_total (name : String) :
    ReturnsIf (countsTotal s.cipherCounts + 1 < 2 ^ 64) (countCipher s name) (fun s' =>
      ∃ counts dropped, s' = { s with cipherCounts := counts, droppedMapEntries := dropped } ∧
        countsTotal counts ≤ countsTotal s.cipherCounts + 1) :=
  (increment_total _ _ _ _).bind fun r hr => .pure ⟨r.1, r.2, rfl, hr⟩

/-- The assertion of `containsC0OrDel` is only made of ASCII names. -/
theorem extractSni_returns (exts : List TlsExtension) :
    Returns (extractSni exts) (fun _ => True) := by
  have hvalue : ∀ hostname, Returns (sniValue hostname) (fun _ => True) := by
    intro hostname
    unfold sniValue
    cases Text.fromUtf8 hostname with
    | none => exact .pure trivial
    | some name =>
      simp only
      split
      · rename_i hascii
        rw [containsC0OrDel, assertThat_of hascii]
        exact .pure trivial
      · exact .pure trivial
  unfold extractSni
  cases firstHostname exts with
  | none => exact .pure trivial
  | some hostname => exact (hvalue hostname).bind fun _ _ => .pure trivial

theorem recordSni_total (sni : Option SniValue) (lastTs : UInt32) :
    ReturnsIf (countsTotal s.sniCounts + 1 < 2 ^ 64) (recordSni s sni lastTs) (fun s' =>
      ∃ counts dropped findings, s' = { s with
        sniCounts := counts, droppedMapEntries := dropped, findings := findings } ∧
        countsTotal counts ≤ countsTotal s.sniCounts + 1) := by
  unfold recordSni
  cases sni with
  | none => exact .pure ⟨_, _, _, rfl, Nat.le_succ _⟩
  | some sni =>
    refine (countSni_total s sni.key).bind fun s₁ h₁ => .pure ?_
    obtain ⟨counts, dropped, rfl, hle⟩ := h₁
    exact ⟨counts, dropped, _, rfl, hle⟩

theorem handleClientHello_total (lib : TlsParser) (ch : ClientHelloContents) (lastTs : UInt32) :
    ReturnsIf (load s + 1 < 2 ^ 64) (handleClientHello lib s ch lastTs)
      (fun s' => Untouched s s' ∧ load s' ≤ load s + 1) := by
  unfold handleClientHello load
  refine ((countVersion_total _ _).imp fun hroom => ?_).bind fun s₁ h₁ => ?_
  · simp only
    omega
  obtain ⟨versions, dropped₁, rfl, hversions⟩ := h₁
  refine ((extractSni_returns _).returnsIf _).bind fun sni _ => ?_
  refine ((recordSni_total _ sni lastTs).imp fun hroom => ?_).bind fun s₂ h₂ => ?_
  · simp only
    omega
  obtain ⟨snis, dropped₂, findings, rfl, hsnis⟩ := h₂
  refine ((countJa3_total _ _).imp fun hroom => ?_).bind fun s₃ h₃ => .pure ?_
  · simp only
    omega
  obtain ⟨hashes, dropped₃, rfl, hhashes⟩ := h₃
  refine ⟨⟨rfl, rfl, rfl, rfl, rfl⟩, ?_⟩
  simp only at *
  omega

theorem handleServerHello_total (lib : TlsParser) (sh : ServerHelloContents) (lastTs : UInt32) :
    ReturnsIf (load s + 1 < 2 ^ 64) (handleServerHello lib s sh lastTs)
      (fun s' => Untouched s s' ∧ load s' ≤ load s + 1) := by
  unfold handleServerHello load
  refine ((countVersion_total _ _).imp fun hroom => ?_).bind fun s₁ h₁ => ?_
  · omega
  obtain ⟨versions, dropped₁, rfl, hversions⟩ := h₁
  refine ((countJa3s_total _ _).imp fun hroom => ?_).bind fun s₂ h₂ => ?_
  · simp only
    omega
  obtain ⟨hashes, dropped₂, rfl, hhashes⟩ := h₂
  refine ((countCipher_total _ _).imp fun hroom => ?_).bind fun s₃ h₃ => .pure ?_
  · simp only
    omega
  obtain ⟨ciphers, dropped₃, rfl, hciphers⟩ := h₃
  refine ⟨⟨rfl, rfl, rfl, rfl, rfl⟩, ?_⟩
  simp only at *
  omega

end Counts

/-! ## Messages -/

abbrev Work := TlsAnalyzer × TlsFlowState

def isHello (dir : Direction) (message : List UInt8) : Bool :=
  byteAt message 0 = expectedMsgType dir

/-- The work after some messages of a direction, with so many overflows counted. -/
structure Hands (dir : Direction) (messages : List (List UInt8)) (overflows : Nat)
    (w w' : Work) : Prop where
  handed : w'.1.handed = w.1.handed ++ messages.filter (isHello dir)
  overflows : w'.1.handshakeReassemblyOverflows =
    bump64^[overflows] w.1.handshakeReassemblyOverflows
  flows : w'.1.flows = w.1.flows
  truncated : w'.1.truncatedRecords = w.1.truncatedRecords
  drops : w'.1.bufferSaturationDrops = w.1.bufferSaturationDrops
  load : load w'.1 ≤ load w.1 + messages.length
  buf : (w'.2.side dir).buf = (w.2.side dir).buf
  other : ∀ other, other ≠ dir → w'.2.side other = w.2.side other

theorem Hands.refl (dir : Direction) (w : Work) : Hands dir [] 0 w w :=
  ⟨(List.append_nil _).symm, rfl, rfl, rfl, rfl, Nat.le_refl _, rfl, fun _ _ => rfl⟩

theorem Hands.trans {dir : Direction} {messages messages' : List (List UInt8)}
    {overflows overflows' : Nat} {w w' w'' : Work} (h : Hands dir messages overflows w w')
    (h' : Hands dir messages' overflows' w' w'') :
    Hands dir (messages ++ messages') (overflows' + overflows) w w'' where
  handed := by rw [h'.handed, h.handed, List.filter_append, List.append_assoc]
  overflows := by rw [h'.overflows, h.overflows, Function.iterate_add_apply]
  flows := h'.flows.trans h.flows
  truncated := h'.truncated.trans h.truncated
  drops := h'.drops.trans h.drops
  load := by
    have hle := h.load
    have hle' := h'.load
    rw [List.length_append]
    omega
  buf := h'.buf.trans h.buf
  other := fun other hne => (h'.other other hne).trans (h.other other hne)

theorem dispatchMessage_hands (lib : TlsParser) (dir : Direction) (lastTs : UInt32)
    (s : TlsAnalyzer) (flow : TlsFlowState) (message : List UInt8) :
    ReturnsIf (load s + 1 < 2 ^ 64) (dispatchMessage lib dir lastTs s flow message)
      (Hands dir [message] 0 (s, flow)) := by
  unfold dispatchMessage
  by_cases hhello : byteAt message 0 = expectedMsgType dir
  · rw [if_pos hhello]
    have hfilter : [message].filter (isHello dir) = [message] := by
      rw [List.filter_cons_of_pos (by simp [isHello, hhello]), List.filter_nil]
    -- whatever the parser says, the message has been handed to it
    have hparsed : ∀ s', Untouched { s with handed := s.handed ++ [message] } s' →
        load s' ≤ load s + 1 → Hands dir [message] 0 (s, flow) (s', seeHello flow dir) := by
      intro s' hkept hload
      refine ⟨?_, hkept.overflows, hkept.flows, hkept.truncated, hkept.drops, hload, ?_,
        fun other hne => side_setSide_of_ne _ _ _ hne⟩
      · rw [hfilter, hkept.handed]
      · simp only [seeHello, side_setSide]
    have hrefused : Hands dir [message] 0 (s, flow) ({ s with
        handed := s.handed ++ [message], parseErrors := bump64 s.parseErrors }, flow) :=
      ⟨by rw [hfilter], rfl, rfl, rfl, rfl, Nat.le_succ _, rfl, fun _ _ => rfl⟩
    simp only
    cases lib.messageHandshake message with
    | none => exact .pure hrefused
    | some result =>
      cases result with
      | other => exact .pure hrefused
      | clientHello ch =>
        cases dir with
        | serverToClient => exact .pure hrefused
        | clientToServer =>
          exact (handleClientHello_total _ lib ch lastTs).bind fun s' hs' =>
            .pure (hparsed s' hs'.1 hs'.2)
      | serverHello sh =>
        cases dir with
        | clientToServer => exact .pure hrefused
        | serverToClient =>
          exact (handleServerHello_total _ lib sh lastTs).bind fun s' hs' =>
            .pure (hparsed s' hs'.1 hs'.2)
  · rw [if_neg hhello]
    refine .pure ⟨?_, rfl, rfl, rfl, rfl, Nat.le_succ _, rfl, fun _ _ => rfl⟩
    rw [List.filter_cons_of_neg (by simp [isHello, hhello]), List.filter_nil, List.append_nil]

/-- What bytes of the handshake come to. -/
structure Outcome where
  messages : List (List UInt8)
  overflows : Nat
  carry : List UInt8

/-- The messages at the front of the carry, which is cleared if it is stuck then. -/
def drained (carry : List UInt8) : Outcome :=
  let (messages, rest) := readMessages carry
  if messageHeader.Stuck rest then ⟨messages, 1, []⟩ else ⟨messages, 0, rest⟩

theorem drained_of_some {carry message : List UInt8} {n : Nat}
    (h : messageHeader.lexer.head carry = some (message, n)) :
    drained carry = { drained (carry.drop n) with
      messages := message :: (drained (carry.drop n)).messages } := by
  unfold drained readMessages
  rw [messageHeader.lexer.lex_of_some h]
  simp only
  split
  · rfl
  · rfl

theorem drained_of_stuck {carry : List UInt8} (h : messageHeader.Stuck carry) :
    drained carry = ⟨[], 1, []⟩ := by
  unfold drained readMessages
  rw [messageHeader.lexer.lex_of_none (Headed.head_of_stuck h)]
  exact if_pos h

theorem drained_of_waiting {carry : List UInt8} (h : messageHeader.Waiting carry) :
    drained carry = ⟨[], 0, carry⟩ := by
  unfold drained readMessages
  rw [messageHeader.lexer.lex_of_none (Headed.head_of_waiting h)]
  exact if_neg fun hstuck => Headed.not_waiting_of_stuck hstuck h

theorem drained_waiting (carry : List UInt8) : messageHeader.Waiting (drained carry).carry := by
  unfold drained readMessages
  simp only
  split
  · exact Headed.waiting_nil
  · rename_i hstuck
    exact Headed.waiting_of_head (messageHeader.lexer.head_rest carry) hstuck

theorem drained_length (carry : List UInt8) :
    (drained carry).messages.length + (drained carry).carry.length ≤ carry.length := by
  have hlex := messageHeader.lexer.length_lex carry
  unfold drained readMessages
  simp only
  split
  · simp only [List.length_nil]
    omega
  · exact hlex

theorem drainCarry_hands (lib : TlsParser) (dir : Direction) (lastTs : UInt32) (turns : Nat)
    (s : TlsAnalyzer) (flow : TlsFlowState) (carry : List UInt8) (hturns : carry.length ≤ turns) :
    ReturnsIf (load s + carry.length < 2 ^ 64) (drainCarry lib dir lastTs turns s flow carry)
      (fun r => r.2.2 = (drained carry).carry ∧
        Hands dir (drained carry).messages (drained carry).overflows (s, flow) (r.1, r.2.1)) := by
  induction turns generalizing s flow carry with
  | zero =>
    obtain rfl : carry = [] := List.length_eq_zero_iff.mp (Nat.le_zero.mp hturns)
    rw [drained_of_waiting Headed.waiting_nil]
    exact .pure ⟨rfl, .refl dir (s, flow)⟩
  | succ turns ih =>
    rw [drainCarry]
    by_cases hshort : carry.length < 4
    · rw [if_pos hshort, drained_of_waiting (.inl hshort)]
      exact .pure ⟨rfl, .refl dir (s, flow)⟩
    rw [if_neg hshort]
    by_cases hspoofed : bodyLen carry > maxBuf
    · rw [if_pos hspoofed, drained_of_stuck ⟨Nat.le_of_not_lt hshort, hspoofed⟩]
      exact .pure ⟨rfl, (List.append_nil _).symm, rfl, rfl, rfl, rfl, Nat.le_refl _, rfl,
        fun _ _ => rfl⟩
    rw [if_neg hspoofed]
    by_cases hincomplete : carry.length < 4 + bodyLen carry
    · rw [if_pos hincomplete, drained_of_waiting (.inr ⟨Nat.le_of_not_lt hspoofed, hincomplete⟩)]
      exact .pure ⟨rfl, .refl dir (s, flow)⟩
    rw [if_neg hincomplete, drained_of_some (Headed.head_of_le (h := messageHeader)
      (Nat.le_of_not_lt hshort) (Nat.le_of_not_lt hspoofed) (Nat.le_of_not_lt hincomplete))]
    have hsize : messageHeader.size carry = 4 + bodyLen carry := rfl
    have hlen : (carry.drop (4 + bodyLen carry)).length = carry.length - (4 + bodyLen carry) :=
      List.length_drop
    rw [hsize]
    refine ((dispatchMessage_hands lib dir lastTs s flow _).imp (by omega)).bind fun w hw => ?_
    have hload := hw.load
    simp only [List.length_singleton] at hload
    refine ((ih w.1 w.2 _ (by omega)).imp fun hroom => ?_).mono fun r hr => ⟨hr.1, ?_⟩
    · omega
    · exact hw.trans hr.2

/-! ## Records -/

def recordPayload (record : List UInt8) : List UInt8 := record.drop 5

def isHandshake (record : List UInt8) : Bool := byteAt record 0 = 0x16

def takeRecord (carry record : List UInt8) : Outcome :=
  if isHandshake record = false then ⟨[], 0, carry⟩
  else if carry.length + (recordPayload record).length > maxBuf then ⟨[], 1, []⟩
  else drained (carry ++ recordPayload record)

def takeRecords (carry : List UInt8) : List (List UInt8) → Outcome
  | [] => ⟨[], 0, carry⟩
  | record :: records =>
    let first := takeRecord carry record
    let later := takeRecords first.carry records
    ⟨first.messages ++ later.messages, later.overflows + first.overflows, later.carry⟩

/-- The work after some records of a direction, with `rest` left in its buffer. -/
structure Parses (dir : Direction) (o : Outcome) (rest : List UInt8) (truncated : Nat)
    (w w' : Work) : Prop where
  handed : w'.1.handed = w.1.handed ++ o.messages.filter (isHello dir)
  overflows : w'.1.handshakeReassemblyOverflows =
    bump64^[o.overflows] w.1.handshakeReassemblyOverflows
  carry : (w'.2.side dir).hsCarry = o.carry
  buf : (w'.2.side dir).buf = rest
  truncated : w'.1.truncatedRecords = bump64^[truncated] w.1.truncatedRecords
  flows : w'.1.flows = w.1.flows
  drops : w'.1.bufferSaturationDrops = w.1.bufferSaturationDrops
  other : ∀ other, other ≠ dir → w'.2.side other = w.2.side other
  load : load w'.1 + o.carry.length + rest.length ≤
    load w.1 + (w.2.side dir).hsCarry.length + (w.2.side dir).buf.length

theorem Parses.wait (dir : Direction) (w : Work) :
    Parses dir ⟨[], 0, (w.2.side dir).hsCarry⟩ (w.2.side dir).buf 0 w w :=
  ⟨(List.append_nil _).symm, rfl, rfl, rfl, rfl, rfl, rfl, fun _ _ => rfl, Nat.le_refl _⟩

theorem Parses.trans {dir : Direction} {o o' : Outcome} {buf buf' : List UInt8} {truncated : Nat}
    {w w' w'' : Work} (h : Parses dir o buf 0 w w') (h' : Parses dir o' buf' truncated w' w'') :
    Parses dir ⟨o.messages ++ o'.messages, o'.overflows + o.overflows, o'.carry⟩ buf' truncated
      w w'' where
  handed := by rw [h'.handed, h.handed, List.filter_append, List.append_assoc]
  overflows := by rw [h'.overflows, h.overflows, Function.iterate_add_apply]
  carry := h'.carry
  buf := h'.buf
  truncated := by
    rw [h'.truncated, h.truncated]
    rfl
  flows := h'.flows.trans h.flows
  drops := h'.drops.trans h.drops
  other := fun other hne => (h'.other other hne).trans (h.other other hne)
  load := by
    have hle := h.load
    have hle' := h'.load
    rw [h.carry, h.buf] at hle'
    exact Nat.le_trans hle' hle

/-- The direction is set, with nothing handed to the parser. -/
theorem parses_setSide {s s' : TlsAnalyzer} (flow : TlsFlowState) (dir : Direction)
    (carry buf : List UInt8) {overflows truncated : Nat}
    (hhanded : s'.handed = s.handed)
    (hoverflows : s'.handshakeReassemblyOverflows =
      bump64^[overflows] s.handshakeReassemblyOverflows)
    (htruncated : s'.truncatedRecords = bump64^[truncated] s.truncatedRecords)
    (hflows : s'.flows = s.flows) (hdrops : s'.bufferSaturationDrops = s.bufferSaturationDrops)
    (hload : load s' = load s) (hcarry : carry.length ≤ (flow.side dir).hsCarry.length)
    (hbuf : buf.length ≤ (flow.side dir).buf.length) :
    Parses dir ⟨[], overflows, carry⟩ buf truncated (s, flow)
      (s', flow.setSide dir { flow.side dir with buf := buf, hsCarry := carry }) where
  handed := by
    rw [List.filter_nil, List.append_nil]
    exact hhanded
  overflows := hoverflows
  carry := by rw [side_setSide]
  buf := by rw [side_setSide]
  truncated := htruncated
  flows := hflows
  drops := hdrops
  other := fun _ hne => side_setSide_of_ne _ _ _ hne
  load := by
    simp only [hload]
    omega

theorem processHandshakeCarry_parses (lib : TlsParser) (s : TlsAnalyzer) (flow : TlsFlowState)
    (dir : Direction) (buf payload : List UInt8) (lastTs : UInt32)
    (hbuf : payload.length + buf.length ≤ (flow.side dir).buf.length) :
    ReturnsIf
      (load s + (flow.side dir).hsCarry.length + (flow.side dir).buf.length < 2 ^ 64)
      (processHandshakeCarry lib s
        (flow.setSide dir { flow.side dir with buf := buf, hsCarry := [] }) dir
        ((flow.side dir).hsCarry ++ payload) lastTs)
      (Parses dir (drained ((flow.side dir).hsCarry ++ payload)) buf 0 (s, flow)) := by
  generalize hcarry : (flow.side dir).hsCarry ++ payload = carry
  have hlen : carry.length = (flow.side dir).hsCarry.length + payload.length := by
    rw [← hcarry, List.length_append]
  unfold processHandshakeCarry
  refine ((drainCarry_hands lib dir lastTs _ s _ carry (Nat.le_refl _)).imp (by omega)).bind
    fun r hr => .pure ?_
  obtain ⟨hrest, hhands⟩ := hr
  have hload := hhands.load
  have hdrained := drained_length carry
  refine ⟨hhands.handed, hhands.overflows, ?_, ?_, hhands.truncated, hhands.flows, hhands.drops,
    fun other hne => ?_, ?_⟩
  · simp only [side_setSide]
    exact hrest
  · have hkept := hhands.buf
    simp only [side_setSide] at hkept ⊢
    exact hkept
  · have hother := hhands.other other hne
    simp only [side_setSide_of_ne _ _ _ hne] at hother ⊢
    exact hother
  · simp only at hload ⊢
    omega

/-- What stays in the buffer when the records have been read; it is cleared if it is stuck. -/
def leftOver (buf : List UInt8) : List UInt8 :=
  if recordHeader.Stuck (readRecords buf).2 then [] else (readRecords buf).2

def oversized (buf : List UInt8) : Nat := if recordHeader.Stuck (readRecords buf).2 then 1 else 0

theorem readRecords_of_waiting {buf : List UInt8} (h : recordHeader.Waiting buf) :
    readRecords buf = ([], buf) ∧ leftOver buf = buf ∧ oversized buf = 0 := by
  have hread := recordHeader.lexer.lex_of_none (Headed.head_of_waiting h)
  have hfree : ¬recordHeader.Stuck (readRecords buf).2 := by
    rw [readRecords, hread]
    exact fun hstuck => Headed.not_waiting_of_stuck hstuck h
  refine ⟨hread, ?_, if_neg hfree⟩
  rw [leftOver, if_neg hfree, readRecords, hread]

theorem readRecords_of_stuck {buf : List UInt8} (h : recordHeader.Stuck buf) :
    readRecords buf = ([], buf) ∧ leftOver buf = [] ∧ oversized buf = 1 := by
  have hread := recordHeader.lexer.lex_of_none (Headed.head_of_stuck h)
  have hstuck : recordHeader.Stuck (readRecords buf).2 := by
    rw [readRecords, hread]
    exact h
  exact ⟨hread, if_pos hstuck, if_pos hstuck⟩

theorem readRecords_of_some {buf record : List UInt8} {n : Nat}
    (h : recordHeader.lexer.head buf = some (record, n)) :
    (readRecords buf).1 = record :: (readRecords (buf.drop n)).1 ∧
      leftOver buf = leftOver (buf.drop n) ∧ oversized buf = oversized (buf.drop n) := by
  unfold leftOver oversized readRecords
  rw [recordHeader.lexer.lex_of_some h]
  exact ⟨rfl, rfl, rfl⟩

theorem leftOver_waiting (buf : List UInt8) : recordHeader.Waiting (leftOver buf) := by
  unfold leftOver
  split
  · exact Headed.waiting_nil
  · rename_i hstuck
    exact Headed.waiting_of_head (recordHeader.lexer.head_rest buf) hstuck

theorem byteAt_take_zero {buf : List UInt8} {n : Nat} (hpos : 0 < n) (hle : n ≤ buf.length) :
    byteAt (buf.take n) 0 = byteAt buf 0 := by
  have hlen : 0 < (buf.take n).length := by
    rw [List.length_take]
    omega
  rw [← byteAt_append hlen (buf.drop n), List.take_append_drop]

/-- One record of the loop. -/
theorem takeRecord_parses (lib : TlsParser) (dir : Direction) (s : TlsAnalyzer)
    (flow : TlsFlowState) {record : List UInt8} {n : Nat}
    (hhead : recordHeader.lexer.head (flow.side dir).buf = some (record, n)) :
    ∃ step : Checked Work,
      (∀ turns, tryParseRecords lib dir (turns + 1) s flow =
        (step >>= fun w => tryParseRecords lib dir turns w.1 w.2)) ∧
      ReturnsIf (load s + (flow.side dir).hsCarry.length + (flow.side dir).buf.length < 2 ^ 64)
        step (Parses dir (takeRecord (flow.side dir).hsCarry record) ((flow.side dir).buf.drop n) 0
          (s, flow)) := by
  generalize hbuf : (flow.side dir).buf = buf at hhead
  obtain ⟨hlen, hlimit, hn, hle, rfl⟩ := Headed.head_eq_some hhead
  replace hn : n = 5 + payloadLen buf := hn
  have hheader : ¬buf.length < 5 := Nat.not_lt_of_le hlen
  have hsmall : ¬payloadLen buf > maxRecordPayload := Nat.not_lt_of_le hlimit
  have hwhole : ¬buf.length < 5 + payloadLen buf := by omega
  have htype : byteAt (buf.take n) 0 = byteAt buf 0 := byteAt_take_zero (by omega) hle
  have hpayload : (recordPayload (buf.take n)).length = payloadLen buf := by
    rw [recordPayload, List.length_drop, List.length_take]
    omega
  have hdrop : (buf.drop n).length = buf.length - n := List.length_drop
  simp only [tryParseRecords, prepareRecordStep, hbuf]
  rw [if_neg hheader, if_neg hsmall, if_neg hwhole, ← hn]
  unfold takeRecord
  by_cases hhandshake : byteAt buf 0 = 0x16
  · have hkind : ¬isHandshake (buf.take n) = false := by simp [isHandshake, htype, hhandshake]
    rw [if_neg (not_not_intro hhandshake), if_neg hkind, hpayload]
    by_cases hfull : (flow.side dir).hsCarry.length + payloadLen buf > maxBuf
    · rw [if_pos hfull, if_pos hfull]
      refine ⟨.ok ({ s with
        handshakeReassemblyOverflows := bump64 s.handshakeReassemblyOverflows }, _), fun _ => rfl,
        .pure (parses_setSide flow dir [] _ rfl rfl rfl rfl rfl rfl (Nat.zero_le _) ?_)⟩
      rw [hbuf]
      omega
    · rw [if_neg hfull, if_neg hfull]
      refine ⟨_, fun _ => rfl, ?_⟩
      have hparses := processHandshakeCarry_parses lib s flow dir (buf.drop n)
        (recordPayload (buf.take n)) flow.lastTs (by rw [hbuf]; omega)
      rw [hbuf] at hparses
      exact hparses
  · have hkind : isHandshake (buf.take n) = false := by simp [isHandshake, htype, hhandshake]
    rw [if_pos hhandshake, if_pos hkind]
    refine ⟨.ok (s, _), fun _ => rfl, .pure
      (parses_setSide flow dir _ _ rfl rfl rfl rfl rfl rfl (Nat.le_refl _) ?_)⟩
    rw [hbuf]
    omega

/-- The end of the loop. -/
theorem stop_parses (lib : TlsParser) (dir : Direction) (s : TlsAnalyzer) (flow : TlsFlowState)
    (hhead : recordHeader.lexer.head (flow.side dir).buf = none) :
    ∃ w, (∀ turns, tryParseRecords lib dir (turns + 1) s flow = .ok w) ∧
      Parses dir ⟨[], 0, (flow.side dir).hsCarry⟩ (leftOver (flow.side dir).buf)
        (oversized (flow.side dir).buf) (s, flow) w := by
  simp only [tryParseRecords, prepareRecordStep]
  by_cases hshort : (flow.side dir).buf.length < 5
  · obtain ⟨-, hleft, hover⟩ := readRecords_of_waiting (.inl hshort)
    rw [if_pos hshort, hleft, hover]
    exact ⟨_, fun _ => rfl, Parses.wait dir (s, flow)⟩
  rw [if_neg hshort]
  by_cases hlarge : payloadLen (flow.side dir).buf > maxRecordPayload
  · obtain ⟨-, hleft, hover⟩ := readRecords_of_stuck ⟨Nat.le_of_not_lt hshort, hlarge⟩
    rw [if_pos hlarge, hleft, hover]
    exact ⟨_, fun _ => rfl,
      parses_setSide flow dir _ [] rfl rfl rfl rfl rfl rfl (Nat.le_refl _) (Nat.zero_le _)⟩
  · have hwait : recordHeader.Waiting (flow.side dir).buf :=
      Headed.waiting_of_head hhead fun hstuck => hlarge hstuck.2
    obtain ⟨-, hleft, hover⟩ := readRecords_of_waiting hwait
    have hincomplete : (flow.side dir).buf.length < 5 + payloadLen (flow.side dir).buf := by
      rcases hwait with h | h
      · exact absurd h hshort
      · exact h.2
    rw [if_neg hlarge, if_pos hincomplete, hleft, hover]
    exact ⟨_, fun _ => rfl, Parses.wait dir (s, flow)⟩

theorem tryParseRecords_nil (lib : TlsParser) (dir : Direction) (turns : Nat) (s : TlsAnalyzer)
    (flow : TlsFlowState) (h : (flow.side dir).buf = []) :
    tryParseRecords lib dir turns s flow = .ok (s, flow) := by
  cases turns with
  | zero => rfl
  | succ turns =>
    have hshort : (flow.side dir).buf.length < 5 := by
      rw [h]
      decide
    simp only [tryParseRecords, prepareRecordStep]
    rw [if_pos hshort]

theorem tryParseRecords_parses (lib : TlsParser) (dir : Direction) (turns : Nat)
    (s : TlsAnalyzer) (flow : TlsFlowState) (hturns : (flow.side dir).buf.length ≤ turns) :
    ReturnsIf (load s + (flow.side dir).hsCarry.length + (flow.side dir).buf.length < 2 ^ 64)
      (tryParseRecords lib dir turns s flow)
      (Parses dir (takeRecords (flow.side dir).hsCarry (readRecords (flow.side dir).buf).1)
        (leftOver (flow.side dir).buf) (oversized (flow.side dir).buf) (s, flow)) := by
  induction turns generalizing s flow with
  | zero =>
    have hnil : (flow.side dir).buf = [] := List.length_eq_zero_iff.mp (Nat.le_zero.mp hturns)
    have hwait : recordHeader.Waiting (flow.side dir).buf := by
      rw [hnil]
      exact Headed.waiting_nil
    obtain ⟨hread, hleft, hover⟩ := readRecords_of_waiting hwait
    rw [hread, hleft, hover]
    exact .pure (Parses.wait dir (s, flow))
  | succ turns ih =>
    cases hhead : recordHeader.lexer.head (flow.side dir).buf with
    | none =>
      obtain ⟨w, hstop, hparses⟩ := stop_parses lib dir s flow hhead
      rw [hstop, readRecords, recordHeader.lexer.lex_of_none hhead]
      exact .pure hparses
    | some next =>
      obtain ⟨record, n⟩ := next
      obtain ⟨hpos, hle⟩ := recordHeader.lexer.bounds hhead
      obtain ⟨hread, hleft, hover⟩ := readRecords_of_some hhead
      obtain ⟨step, hstep, hfirst⟩ := takeRecord_parses lib dir s flow hhead
      have hdrop : ((flow.side dir).buf.drop n).length = (flow.side dir).buf.length - n :=
        List.length_drop
      rw [hstep, hread, hleft, hover]
      refine hfirst.bind fun w hw => ?_
      have hload := hw.load
      have hlater := ih w.1 w.2 (by rw [hw.buf]; omega)
      rw [hw.carry, hw.buf] at hlater
      refine (hlater.imp fun hroom => ?_).mono fun w' hw' => hw.trans hw'
      simp only at hload
      omega

/-! ## Turns

Neither loop is ended by its turns. -/

theorem drainCarry_turns (lib : TlsParser) (dir : Direction) (lastTs : UInt32) (turns turns' : Nat)
    (s : TlsAnalyzer) (flow : TlsFlowState) (carry : List UInt8) (h : carry.length ≤ turns)
    (h' : carry.length ≤ turns') :
    drainCarry lib dir lastTs turns s flow carry =
      drainCarry lib dir lastTs turns' s flow carry := by
  induction turns generalizing turns' s flow carry with
  | zero =>
    obtain rfl : carry = [] := List.length_eq_zero_iff.mp (Nat.le_zero.mp h)
    cases turns' with
    | zero => rfl
    | succ turns' => rfl
  | succ turns ih =>
    cases turns' with
    | zero =>
      obtain rfl : carry = [] := List.length_eq_zero_iff.mp (Nat.le_zero.mp h')
      rfl
    | succ turns' =>
      have hdrop : (carry.drop (4 + bodyLen carry)).length = carry.length - (4 + bodyLen carry) :=
        List.length_drop
      rw [drainCarry, drainCarry]
      congr 3
      refine bind_congr_ok fun w _ => ?_
      exact ih turns' w.1 w.2 _ (by omega) (by omega)

theorem tryParseRecords_turns (lib : TlsParser) (dir : Direction) (turns turns' : Nat)
    (s : TlsAnalyzer) (flow : TlsFlowState) (h : (flow.side dir).buf.length ≤ turns)
    (h' : (flow.side dir).buf.length ≤ turns') :
    tryParseRecords lib dir turns s flow = tryParseRecords lib dir turns' s flow := by
  induction turns generalizing turns' s flow with
  | zero =>
    have hnil : (flow.side dir).buf = [] := List.length_eq_zero_iff.mp (Nat.le_zero.mp h)
    rw [tryParseRecords_nil lib dir _ s flow hnil, tryParseRecords_nil lib dir _ s flow hnil]
  | succ turns ih =>
    cases turns' with
    | zero =>
      have hnil : (flow.side dir).buf = [] := List.length_eq_zero_iff.mp (Nat.le_zero.mp h')
      rw [tryParseRecords_nil lib dir _ s flow hnil, tryParseRecords_nil lib dir _ s flow hnil]
    | succ turns' =>
      cases hhead : recordHeader.lexer.head (flow.side dir).buf with
      | none =>
        obtain ⟨w, hstop, -⟩ := stop_parses lib dir s flow hhead
        rw [hstop, hstop]
      | some next =>
        obtain ⟨record, n⟩ := next
        obtain ⟨hpos, hle⟩ := recordHeader.lexer.bounds hhead
        obtain ⟨step, hstep, hfirst⟩ := takeRecord_parses lib dir s flow hhead
        have hdrop : ((flow.side dir).buf.drop n).length = (flow.side dir).buf.length - n :=
          List.length_drop
        rw [hstep, hstep]
        refine bind_congr_ok fun w hw => ?_
        have hbuf := (hfirst.2 w hw).buf
        exact ih turns' w.1 w.2 (by rw [hbuf]; omega) (by rw [hbuf]; omega)

/-! ## Calls -/

def flowOf (s : TlsAnalyzer) (flowKey : FlowKey) : TlsFlowState :=
  (s.flows.get? flowKey).getD {}

theorem flowOf_insert {s s' : TlsAnalyzer} {flowKey : FlowKey} {flow : TlsFlowState}
    (h : s'.flows = s.flows.insert flowKey flow) : flowOf s' flowKey = flow := by
  rw [flowOf, h, SortedMap.get?_insert_self, Option.getD_some]

theorem flowOf_insert_of_ne {s s' : TlsAnalyzer} {flowKey other : FlowKey} {flow : TlsFlowState}
    (h : s'.flows = s.flows.insert flowKey flow) (hne : other ≠ flowKey) :
    flowOf s' other = flowOf s other := by
  rw [flowOf, h, SortedMap.get?_insert_of_ne _ _ hne, flowOf]

/-- The bytes a direction has kept. -/
def Side.pending (side : Side) : Nat := side.hsCarry.length + side.buf.length

/-- What a call does to a flow that is not done; `side` is the direction as it was. -/
structure Called (flowKey : FlowKey) (dir : Direction) (side : Side) (data : List UInt8)
    (s s' : TlsAnalyzer) : Prop where
  handed : s'.handed = s.handed ++
    (takeRecords side.hsCarry (readRecords (side.append data).buf).1).messages.filter (isHello dir)
  overflows : s'.handshakeReassemblyOverflows =
    bump64^[(takeRecords side.hsCarry (readRecords (side.append data).buf).1).overflows]
      s.handshakeReassemblyOverflows
  carry : ((flowOf s' flowKey).side dir).hsCarry =
    (takeRecords side.hsCarry (readRecords (side.append data).buf).1).carry
  buf : ((flowOf s' flowKey).side dir).buf = leftOver (side.append data).buf
  truncated : s'.truncatedRecords =
    bump64^[oversized (side.append data).buf] s.truncatedRecords
  drops : s'.bufferSaturationDrops =
    if data.length > maxBuf - side.buf.length then bump64 s.bufferSaturationDrops
    else s.bufferSaturationDrops
  other : ∀ other, other ≠ dir → (flowOf s' flowKey).side other = (flowOf s flowKey).side other
  flows : ∃ flow, s'.flows = s.flows.insert flowKey flow
  load : load s' + ((flowOf s' flowKey).side dir).pending ≤
    load s + side.pending + data.length

theorem Side.append_hsCarry (side : Side) (data : List UInt8) :
    (side.append data).hsCarry = side.hsCarry := by
  unfold Side.append
  simp only
  split
  · rfl
  · rfl

theorem Side.length_append (side : Side) (data : List UInt8) :
    (side.append data).buf.length ≤ side.buf.length + data.length := by
  unfold Side.append
  simp only
  split
  · rw [List.length_append, List.length_take]
    omega
  · exact Nat.le_add_right _ _

/-- Nothing is lost if there is room for everything. -/
theorem Side.append_of_le (side : Side) {data : List UInt8}
    (h : data.length ≤ maxBuf - side.buf.length) :
    side.append data = { side with buf := side.buf ++ data } := by
  unfold Side.append
  simp only
  split
  · rw [Nat.min_eq_left h, List.take_length]
  · have hnil : data = [] := List.length_eq_zero_iff.mp (by omega)
    rw [hnil, List.append_nil]

theorem onData_of_done {s : TlsAnalyzer} {flowKey : FlowKey} (h : (flowOf s flowKey).done = true)
    (lib : TlsParser) (dir : Direction) (data : List UInt8) (timestamp : UInt32) :
    onData lib s flowKey dir data timestamp = .ok s := if_pos h

theorem onData_called (lib : TlsParser) (s : TlsAnalyzer) (flowKey : FlowKey) (dir : Direction)
    (data : List UInt8) (timestamp : UInt32) (hopen : (flowOf s flowKey).done = false) :
    ReturnsIf (load s + ((flowOf s flowKey).side dir).pending + data.length < 2 ^ 64)
      (onData lib s flowKey dir data timestamp)
      (Called flowKey dir ((flowOf s flowKey).side dir) data s) := by
  have hdone : ¬((s.flows.get? flowKey).getD {}).done = true := by
    show ¬(flowOf s flowKey).done = true
    rw [hopen]
    exact Bool.noConfusion
  unfold onData
  rw [if_neg hdone, show (s.flows.get? flowKey).getD {} = flowOf s flowKey from rfl]
  simp only [side_lastTs]
  generalize hside : (flowOf s flowKey).side dir = side
  generalize hs₁ : (if data.length > maxBuf - side.buf.length then
    { s with bufferSaturationDrops := bump64 s.bufferSaturationDrops } else s) = s₁
  generalize hflow₁ : ({ flowOf s flowKey with lastTs := timestamp } : TlsFlowState).setSide dir
    (side.append data) = flow₁
  have hside₁ : flow₁.side dir = side.append data := by rw [← hflow₁, side_setSide]
  have hother₁ : ∀ other, other ≠ dir → flow₁.side other = (flowOf s flowKey).side other := by
    intro other hne
    rw [← hflow₁, side_setSide_of_ne _ _ _ hne, side_lastTs]
  have hkept : s₁.handed = s.handed ∧ s₁.flows = s.flows ∧ load s₁ = load s ∧
      s₁.handshakeReassemblyOverflows = s.handshakeReassemblyOverflows ∧
      s₁.truncatedRecords = s.truncatedRecords ∧
      s₁.bufferSaturationDrops = if data.length > maxBuf - side.buf.length then
        bump64 s.bufferSaturationDrops else s.bufferSaturationDrops := by
    rw [← hs₁]
    split
    · exact ⟨rfl, rfl, rfl, rfl, rfl, rfl⟩
    · exact ⟨rfl, rfl, rfl, rfl, rfl, rfl⟩
  obtain ⟨hhanded, hflows, hload, hoverflows, htruncated, hdrops⟩ := hkept
  have hlen := side.length_append data
  have hparses :=
    tryParseRecords_parses lib dir (flow₁.side dir).buf.length s₁ flow₁ (Nat.le_refl _)
  rw [hside₁, side.append_hsCarry] at hparses
  rw [hside₁]
  unfold Side.pending
  refine (hparses.imp fun hroom => ?_).bind fun w hw => .pure ?_
  · omega
  · have hflow : flowOf { w.1 with flows := w.1.flows.insert flowKey w.2 } flowKey = w.2 :=
      flowOf_insert (s := w.1) rfl
    have hle := hw.load
    simp only [hside₁, side.append_hsCarry, hload] at hle
    refine ⟨by rw [← hhanded]; exact hw.handed, by rw [← hoverflows]; exact hw.overflows,
      by rw [hflow]; exact hw.carry, by rw [hflow]; exact hw.buf,
      by rw [← htruncated]; exact hw.truncated, by rw [← hdrops]; exact hw.drops,
      fun other hne => ?_, ⟨w.2, ?_⟩, ?_⟩
    · rw [hflow, hw.other other hne]
      exact hother₁ other hne
    · simp only [hw.flows, hflows]
    · rw [hflow, Side.pending, Side.pending, hw.carry, hw.buf]
      show load w.1 + _ ≤ _
      omega

/-! ## Runs -/

/-- What is kept between two calls. -/
structure Side.Bounded (side : Side) : Prop where
  buf : recordHeader.Waiting side.buf
  carry : messageHeader.Waiting side.hsCarry
  carry_le : side.hsCarry.length ≤ maxBuf

theorem takeRecord_bounded {carry : List UInt8} (record : List UInt8)
    (hwait : messageHeader.Waiting carry) (hle : carry.length ≤ maxBuf) :
    messageHeader.Waiting (takeRecord carry record).carry ∧
      (takeRecord carry record).carry.length ≤ maxBuf := by
  unfold takeRecord
  split
  · exact ⟨hwait, hle⟩
  · split
    · exact ⟨Headed.waiting_nil, Nat.zero_le _⟩
    · have hlen := drained_length (carry ++ recordPayload record)
      rw [List.length_append] at hlen
      exact ⟨drained_waiting _, by omega⟩

theorem takeRecords_bounded {carry : List UInt8} (records : List (List UInt8))
    (hwait : messageHeader.Waiting carry) (hle : carry.length ≤ maxBuf) :
    messageHeader.Waiting (takeRecords carry records).carry ∧
      (takeRecords carry records).carry.length ≤ maxBuf := by
  induction records generalizing carry with
  | nil => exact ⟨hwait, hle⟩
  | cons record records ih =>
    obtain ⟨hwait₁, hle₁⟩ := takeRecord_bounded record hwait hle
    exact ih hwait₁ hle₁

theorem length_of_waiting {buf : List UInt8} (h : recordHeader.Waiting buf) :
    buf.length ≤ 5 + maxRecordPayload - 1 := by
  rcases h with hshort | ⟨hlimit, hsize⟩
  · have hheader : recordHeader.header = 5 := rfl
    omega
  · have hlimit' : payloadLen buf ≤ maxRecordPayload := hlimit
    have hsize' : buf.length < 5 + payloadLen buf := hsize
    omega

/-- There is always room for this many bytes. -/
theorem room_of_waiting {buf data : List UInt8} (h : recordHeader.Waiting buf)
    (hdata : data.length ≤ 47099) : data.length ≤ maxBuf - buf.length := by
  have hlen := length_of_waiting h
  simp only [maxRecordPayload, maxBuf] at hlen ⊢
  omega

/-- The bytes all flows have kept. -/
def TlsFlowState.pending (flow : TlsFlowState) : Nat := flow.client.pending + flow.server.pending

def pending (s : TlsAnalyzer) : Nat := s.flows.sumBy fun e => e.2.pending

theorem pending_insert {s s' : TlsAnalyzer} {flowKey : FlowKey} {flow : TlsFlowState}
    (h : s'.flows = s.flows.insert flowKey flow) :
    pending s' + (flowOf s flowKey).pending = pending s + flow.pending := by
  rw [pending, h, SortedMap.sumBy_insert]
  cases hget : s.flows.get? flowKey with
  | none =>
    have hnew : flowOf s flowKey = {} := by rw [flowOf, hget, Option.getD_none]
    rw [hnew, SortedMap.erase_of_none _ hget]
    show flow.pending + pending s + 0 = pending s + flow.pending
    omega
  | some old =>
    have hold : flowOf s flowKey = old := by rw [flowOf, hget, Option.getD_some]
    rw [hold, pending, SortedMap.sumBy_erase _ _ hget]
    simp only
    omega

theorem pending_le (s : TlsAnalyzer) (flowKey : FlowKey) :
    (flowOf s flowKey).pending ≤ pending s := by
  cases hget : s.flows.get? flowKey with
  | none =>
    rw [flowOf, hget, Option.getD_none]
    exact Nat.zero_le _
  | some flow =>
    rw [flowOf, hget, Option.getD_some, pending, SortedMap.sumBy_erase _ _ hget]
    exact Nat.le_add_right _ _

theorem side_pending (flow : TlsFlowState) (dir : Direction) :
    ∃ rest, flow.pending = (flow.side dir).pending + rest ∧
      ∀ flow' : TlsFlowState, (∀ other, other ≠ dir → flow'.side other = flow.side other) →
        flow'.pending = (flow'.side dir).pending + rest := by
  cases dir with
  | clientToServer =>
    refine ⟨flow.server.pending, rfl, fun flow' hother => ?_⟩
    have hserver : flow'.server = flow.server := hother .serverToClient nofun
    rw [TlsFlowState.pending, hserver]
    rfl
  | serverToClient =>
    refine ⟨flow.client.pending, Nat.add_comm _ _, fun flow' hother => ?_⟩
    have hclient : flow'.client = flow.client := hother .clientToServer nofun
    rw [TlsFlowState.pending, hclient]
    exact Nat.add_comm _ _

inductive Event
  | data (flowKey : FlowKey) (dir : Direction) (bytes : List UInt8) (timestamp : UInt32)
  | close (flowKey : FlowKey)

def Event.length : Event → Nat
  | .data _ _ bytes _ => bytes.length
  | .close _ => 0

def onEvent (lib : TlsParser) (s : TlsAnalyzer) : Event → Checked TlsAnalyzer
  | .data flowKey dir data timestamp => onData lib s flowKey dir data timestamp
  | .close flowKey => .ok (onFlowClose s flowKey)

def totalBytes (events : List Event) : Nat := (events.map Event.length).sum

/-- What holds after `bytes` bytes. -/
structure Sound (bytes : Nat) (s : TlsAnalyzer) : Prop where
  bounded : ∀ flowKey dir, ((flowOf s flowKey).side dir).Bounded
  load : load s + pending s ≤ bytes

theorem bounded_nil (dir : Direction) : (({} : TlsFlowState).side dir).Bounded := by
  have hnil : ({} : Side).Bounded := ⟨Headed.waiting_nil, Headed.waiting_nil, Nat.zero_le _⟩
  cases dir with
  | clientToServer => exact hnil
  | serverToClient => exact hnil

theorem sound_new : Sound 0 .new := ⟨fun _ dir => bounded_nil dir, Nat.le_refl _⟩

theorem Called.sound {flowKey : FlowKey} {dir : Direction} {data : List UInt8}
    {s s' : TlsAnalyzer} {bytes : Nat} (hs : Sound bytes s)
    (h : Called flowKey dir ((flowOf s flowKey).side dir) data s s') :
    Sound (bytes + data.length) s' := by
  obtain ⟨flow, hflows⟩ := h.flows
  have hflow := flowOf_insert hflows
  have hbefore := hs.bounded flowKey dir
  constructor
  · intro other dir'
    by_cases hkey : other = flowKey
    · rw [hkey]
      by_cases hdir : dir' = dir
      · obtain ⟨hwait, hle⟩ := takeRecords_bounded
          (readRecords (((flowOf s flowKey).side dir).append data).buf).1 hbefore.carry
          hbefore.carry_le
        rw [hdir]
        refine ⟨?_, ?_, ?_⟩
        · rw [h.buf]
          exact leftOver_waiting _
        · rw [h.carry]
          exact hwait
        · rw [h.carry]
          exact hle
      · rw [h.other dir' hdir]
        exact hs.bounded flowKey dir'
    · rw [flowOf_insert_of_ne hflows hkey]
      exact hs.bounded other dir'
  · have hsum := pending_insert hflows
    obtain ⟨rest, hold, hnew⟩ := side_pending (flowOf s flowKey) dir
    have hnew' := hnew _ h.other
    have hload := h.load
    have hall := hs.load
    rw [hflow] at hnew' hload
    omega

theorem onEvent_sound (lib : TlsParser) {bytes : Nat} {s : TlsAnalyzer} (hs : Sound bytes s)
    (e : Event) :
    ReturnsIf (bytes + e.length < 2 ^ 64) (onEvent lib s e) (Sound (bytes + e.length)) := by
  cases e with
  | close flowKey =>
    have hflows : (onFlowClose s flowKey).flows = s.flows.erase flowKey := rfl
    refine .pure ⟨fun other dir => ?_, ?_⟩
    · by_cases hkey : other = flowKey
      · rw [hkey, flowOf, hflows, SortedMap.get?_erase_self, Option.getD_none]
        exact bounded_nil dir
      · rw [flowOf, hflows, SortedMap.get?_erase_of_ne _ hkey]
        exact hs.bounded other dir
    · have hall := hs.load
      have hle : pending (onFlowClose s flowKey) ≤ pending s := by
        rw [pending, hflows, pending]
        cases hget : s.flows.get? flowKey with
        | none => rw [SortedMap.erase_of_none _ hget]
        | some flow =>
          rw [SortedMap.sumBy_erase _ s.flows hget]
          exact Nat.le_add_left _ _
      have hload : load (onFlowClose s flowKey) = load s := rfl
      simp only [Event.length]
      omega
  | data flowKey dir data timestamp =>
    show ReturnsIf (bytes + data.length < 2 ^ 64) (onData lib s flowKey dir data timestamp)
      (Sound (bytes + data.length))
    cases hdone : (flowOf s flowKey).done with
    | true =>
      rw [onData_of_done hdone]
      exact .pure ⟨hs.bounded, Nat.le_trans hs.load (Nat.le_add_right _ _)⟩
    | false =>
      have hall := hs.load
      have hflow := pending_le s flowKey
      obtain ⟨rest, hside, -⟩ := side_pending (flowOf s flowKey) dir
      exact ((onData_called lib s flowKey dir data timestamp hdone).imp fun hroom => by omega).mono
        fun s' hcalled => hcalled.sound hs

theorem run_sound (lib : TlsParser) {bytes : Nat} {s : TlsAnalyzer} (events : List Event)
    (hs : Sound bytes s) :
    ReturnsIf (bytes + totalBytes events < 2 ^ 64) (run (onEvent lib) s events)
      (Sound (bytes + totalBytes events)) := by
  induction events generalizing bytes s with
  | nil => exact .pure hs
  | cons e events ih =>
    have htotal : totalBytes (e :: events) = e.length + totalBytes events := rfl
    rw [run_cons, htotal, ← Nat.add_assoc]
    refine ((onEvent_sound lib hs e).imp (by omega)).bind fun s₁ hs₁ => ih hs₁

/-- The buffers of every flow stay bounded, both loops end by themselves, and a call that brings at
most 47,099 bytes to a flow that is not done is never cut short. -/
theorem run_buffers_bounded (lib : TlsParser) :
    (∀ dir turns s flow, (flow.side dir).buf.length ≤ turns →
      tryParseRecords lib dir turns s flow =
        tryParseRecords lib dir (flow.side dir).buf.length s flow) ∧
    (∀ dir lastTs turns s flow carry, carry.length ≤ turns →
      drainCarry lib dir lastTs turns s flow carry =
        drainCarry lib dir lastTs carry.length s flow carry) ∧
    (∀ events, totalBytes events < 2 ^ 64 → ∃ s, run (onEvent lib) .new events = .ok s) ∧
    ∀ events s, run (onEvent lib) .new events = .ok s → ∀ flowKey dir,
      let side := (flowOf s flowKey).side dir
      (side.buf.length < 5 ∨
        payloadLen side.buf ≤ 18432 ∧ side.buf.length < 5 + payloadLen side.buf) ∧
      side.buf.length ≤ 18436 ∧ side.hsCarry.length ≤ 65536 ∧
      (4 ≤ side.hsCarry.length →
        bodyLen side.hsCarry ≤ 65536 ∧ side.hsCarry.length < 4 + bodyLen side.hsCarry) ∧
      ∀ data timestamp s', onData lib s flowKey dir data timestamp = .ok s' →
        (s'.bufferSaturationDrops ≠ s.bufferSaturationDrops → 47099 < data.length) ∧
        ((flowOf s flowKey).done = false → data.length ≤ 47099 →
          side.append data = { side with buf := side.buf ++ data }) := by
  refine ⟨fun dir turns s flow h => tryParseRecords_turns lib dir _ _ s flow h (Nat.le_refl _),
    fun dir lastTs turns s flow carry h =>
      drainCarry_turns lib dir lastTs _ _ s flow carry h (Nat.le_refl _),
    fun events hbytes => (run_sound lib events sound_new).1 (by omega), ?_⟩
  intro events s hrun flowKey dir
  have hbounded := ((run_sound lib events sound_new).2 s hrun).bounded flowKey dir
  refine ⟨hbounded.buf, length_of_waiting hbounded.buf, hbounded.carry_le, fun hfour => ?_,
    fun data timestamp s' hs' => ?_⟩
  · rcases hbounded.carry with hshort | hwait
    · exact absurd hshort (Nat.not_lt_of_le hfour)
    · exact hwait
  · refine ⟨fun hdrops => ?_, fun _ hle => Side.append_of_le _ (room_of_waiting hbounded.buf hle)⟩
    by_contra hle
    have hroom := room_of_waiting hbounded.buf (Nat.le_of_not_lt hle)
    cases hdone : (flowOf s flowKey).done with
    | true =>
      rw [onData_of_done hdone] at hs'
      cases hs'
      exact hdrops rfl
    | false =>
      have hcalled := (onData_called lib s flowKey dir data timestamp hdone).2 s' hs'
      refine hdrops ?_
      rw [hcalled.drops, if_neg (Nat.not_lt_of_le hroom)]

end Wirerust.Tls
