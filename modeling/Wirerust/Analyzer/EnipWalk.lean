import Wirerust.Lib.Lexing
import Wirerust.Analyzer.Enip

/-!
What the EtherNet/IP walk leaves behind.

One turn of the walk is `turnOf`, a function of the bytes alone, and the walk of `on_data` is
reading such tokens off the front of the buffer and counting them (`walk_eq`). A whole call counts
the tokens and then gives the frames among them to `process_pdu` (`onData_called`). From this every
run keeps its carries short and its counters in step (`run_walks`).
-/

namespace Wirerust.Enip

open Lib Wirerust.Flow Wirerust.Analyzer

/-! ## Headers -/

theorem byteAt_take {xs : List UInt8} {i n : Nat} (h : i < n) :
    byteAt (xs.take n) i = byteAt xs i := by
  rw [byteAt, byteAt, List.getD_eq_getElem?_getD, List.getD_eq_getElem?_getD,
    List.getElem?_take_of_lt h]

theorem parseEnipHeader_take (buf : List UInt8) :
    parseEnipHeader (buf.take 24) = parseEnipHeader buf := by
  unfold parseEnipHeader
  by_cases hlen : buf.length < 24
  · rw [if_pos hlen, if_pos (by rw [List.length_take]; omega)]
  · rw [if_neg hlen, if_neg (by rw [List.length_take]; omega)]
    simp (disch := decide) only [leU16At, leU32At, byteAt_take, List.take_take]
    rfl

/-- A header is read from the first twenty-four bytes. -/
theorem parseEnipHeader_append {xs : List UInt8} (ys : List UInt8) (h : 24 ≤ xs.length) :
    parseEnipHeader (xs ++ ys) = parseEnipHeader xs := by
  rw [← parseEnipHeader_take (xs ++ ys), List.take_append_of_le_length h, parseEnipHeader_take]

theorem parseEnipHeader_eq_none {buf : List UInt8} :
    parseEnipHeader buf = none ↔ buf.length < 24 := by
  unfold parseEnipHeader
  split
  · simp [*]
  · simp [*]

/-! ## Turns -/

inductive Token
  | reject (command : UInt16)
  | frame (command : UInt16) (bytes : List UInt8)
  deriving DecidableEq, Repr

/-- What the walk finds at the front of `buf`, and how many bytes it goes on. -/
def turnOf (buf : List UInt8) : Option (Token × Nat) :=
  match parseEnipHeader buf with
  | none => none
  | some header =>
    let totalFrameLen := 24 + header.length.toNat
    if !isValidEnipFrame header then some (.reject header.command, 1)
    else if totalFrameLen > maxEnipCarryBytes then
      some (.reject header.command, min totalFrameLen buf.length)
    else if buf.length < totalFrameLen then none
    else some (.frame header.command (buf.take totalFrameLen), totalFrameLen)

/-- The frames among the tokens. -/
def frames : List Token → List (List UInt8)
  | [] => []
  | .reject _ :: tokens => frames tokens
  | .frame _ bytes :: tokens => bytes :: frames tokens

def takeToken (c : Delivery) (w : EnipAnalyzer × EnipFlowState) :
    Token → Checked (EnipAnalyzer × EnipFlowState)
  | .reject command => rejectFrame c command w.1 w.2
  | .frame command _ => do
    let flow ← countCommand w.2 command
    .ok (w.1, flow)

theorem turnOf_bounds {buf : List UInt8} {token : Token} {n : Nat}
    (h : turnOf buf = some (token, n)) : 0 < n ∧ n ≤ buf.length := by
  unfold turnOf at h
  cases hparse : parseEnipHeader buf with
  | none =>
    rw [hparse] at h
    cases h
  | some header =>
    have hlen : ¬buf.length < 24 := fun hlt => by
      rw [parseEnipHeader_eq_none.mpr hlt] at hparse
      cases hparse
    simp only [hparse] at h
    split at h
    · cases h
      omega
    · split at h
      · cases h
        omega
      · split at h
        · cases h
        · cases h
          omega

def walkLexer : Lexer UInt8 Token := ⟨turnOf, turnOf_bounds⟩

theorem walk_eq (c : Delivery) (turns : Nat) (s : EnipAnalyzer) (flow : EnipFlowState)
    (buf : List UInt8) :
    walk c turns s flow buf =
      run (takeToken c) (s, flow) (walkLexer.scan turns buf).1 >>= fun w =>
        .ok ⟨w.1, w.2, frames (walkLexer.scan turns buf).1, (walkLexer.scan turns buf).2⟩ := by
  induction turns generalizing s flow buf with
  | zero => rfl
  | succ turns ih =>
    rw [walk, Lexer.scan, show walkLexer.head buf = turnOf buf from rfl, turnOf,
      parseEnipHeader_take]
    cases hparse : parseEnipHeader buf with
    | none => rw [if_pos (parseEnipHeader_eq_none.mp hparse), run_nil, ok_bind]; rfl
    | some header =>
      have hlen : ¬buf.length < 24 := fun hlt => by
        rw [parseEnipHeader_eq_none.mpr hlt] at hparse
        cases hparse
      rw [if_neg hlen]
      by_cases hvalid : (!isValidEnipFrame header) = true
      · simp only [if_pos hvalid]
        rw [run_cons, bind_bind]
        exact bind_congr_ok fun w _ => ih w.1 w.2 _
      · by_cases hlong : 24 + header.length.toNat > maxEnipCarryBytes
        · simp only [if_neg hvalid, if_pos hlong]
          rw [run_cons, bind_bind]
          exact bind_congr_ok fun w _ => ih w.1 w.2 _
        · by_cases hpart : buf.length < 24 + header.length.toNat
          · simp only [if_neg hvalid, if_neg hlong, if_pos hpart]
            rfl
          · simp only [if_neg hvalid, if_neg hlong, if_neg hpart]
            rw [run_cons, takeToken, bind_bind, bind_bind]
            refine bind_congr_ok fun flow' _ => ?_
            rw [ih s flow' _, bind_bind]
            rfl

/-! ## What `process_pdu` leaves alone -/

/-- The fields of a flow that only the walk changes. -/
structure View where
  commandCounts : SortedMap UInt16 Nat
  parseErrors : Nat
  malformedInWindow : Nat
  malformedAnomalyEmitted : Bool
  malformedWindowStartTs : UInt32
  carryC2s : List UInt8
  carryS2c : List UInt8
  isNonEnip : Bool

def EnipFlowState.view (flow : EnipFlowState) : View where
  commandCounts := flow.commandCounts
  parseErrors := flow.parseErrors
  malformedInWindow := flow.malformedInWindow
  malformedAnomalyEmitted := flow.malformedAnomalyEmitted
  malformedWindowStartTs := flow.malformedWindowStartTs
  carryC2s := flow.carryC2s
  carryS2c := flow.carryS2c
  isNonEnip := flow.isNonEnip

theorem carry_eq_of_view {flow flow' : EnipFlowState} (h : flow'.view = flow.view)
    (dir : Direction) : flow'.carry dir = flow.carry dir := by
  cases dir with
  | clientToServer => exact congrArg View.carryC2s h
  | serverToClient => exact congrArg View.carryS2c h

/-- A detector: it raises findings and keeps its own books. `errors` is how many error responses
it may have counted. -/
structure Detects (errors : Nat) (w w' : EnipAnalyzer × EnipFlowState) : Prop where
  flows : w'.1.flows = w.1.flows
  findings : Logged w.1.findings w'.1.findings
  view : w'.2.view = w.2.view
  pduCount : w'.2.pduCount = w.2.pduCount
  errorTotal : countsTotal w'.2.errorCountsInWindow ≤
    countsTotal w.2.errorCountsInWindow + errors

namespace Detects

variable {w w' w'' : EnipAnalyzer × EnipFlowState}

theorem refl (w : EnipAnalyzer × EnipFlowState) : Detects 0 w w :=
  ⟨rfl, .refl _, rfl, rfl, Nat.le_refl _⟩

theorem trans {m n : Nat} (h : Detects m w w') (h' : Detects n w' w'') :
    Detects (m + n) w w'' where
  flows := h'.flows.trans h.flows
  findings := h.findings.trans h'.findings
  view := h'.view.trans h.view
  pduCount := h'.pduCount.trans h.pduCount
  errorTotal := by
    have h₁ := h.errorTotal
    have h₂ := h'.errorTotal
    omega

theorem mono {m n : Nat} (h : Detects m w w') (hle : m ≤ n) : Detects n w w' :=
  { h with errorTotal := Nat.le_trans h.errorTotal (by omega) }

/-- A detector that counts no errors. -/
theorem quiet {s s' : EnipAnalyzer} {flow flow' : EnipFlowState} (hflows : s'.flows = s.flows)
    (hfindings : Logged s.findings s'.findings) (hview : flow'.view = flow.view)
    (hpdu : flow'.pduCount = flow.pduCount)
    (herrors : flow'.errorCountsInWindow = flow.errorCountsInWindow) :
    Detects 0 (s, flow) (s', flow') :=
  ⟨hflows, hfindings, hview, hpdu, by rw [herrors]; exact Nat.le_refl _⟩

end Detects

section Detectors

variable (c : Delivery) (header : EnipHeader) (cip : CipHeader) (serviceClass : CipServiceClass)
variable (s : EnipAnalyzer) (flow : EnipFlowState)

theorem detectListIdentity_detects :
    Detects 0 (s, flow) (detectListIdentity c header s flow) := by
  unfold detectListIdentity
  split
  · refine .quiet rfl (.push _ _) ?_ ?_ ?_
    all_goals
      split
      · rfl
      · rfl
  · exact .refl _

theorem detectIdentityRead_detects :
    Detects 0 (s, flow) (detectIdentityRead c cip serviceClass s, flow) := by
  unfold detectIdentityRead
  split
  · split
    · exact .quiet rfl (.push _ _) rfl rfl rfl
    · exact .refl _
  · exact .refl _

theorem detectCommand_detects (wanted : CipServiceClass) (summary name technique : String) :
    Detects 0 (s, flow)
      (detectCommand c header cip serviceClass s wanted summary name technique, flow) := by
  unfold detectCommand
  split
  · exact .quiet rfl (.push _ _) rfl rfl rfl
  · exact .refl _

theorem countWrite_same : (countWrite c flow).view = flow.view ∧
    (countWrite c flow).pduCount = flow.pduCount ∧
    (countWrite c flow).errorCountsInWindow = flow.errorCountsInWindow := by
  unfold countWrite
  split
  · exact ⟨rfl, rfl, rfl⟩
  · split
    · exact ⟨rfl, rfl, rfl⟩
    · exact ⟨rfl, rfl, rfl⟩

theorem detectWriteBurst_detects :
    Detects 0 (s, flow) (detectWriteBurst c header cip serviceClass s flow) := by
  obtain ⟨hview, hpdu, herrors⟩ := countWrite_same c flow
  unfold detectWriteBurst
  split
  · simp only
    split
    · split
      · exact .quiet rfl (.push _ _) hview hpdu herrors
      · exact .quiet rfl (.push _ _) hview hpdu herrors
    · exact .quiet rfl (.refl _) hview hpdu herrors
  · exact .refl _

theorem detectConnection_detects :
    Detects 0 (s, flow) (detectConnection c header cip serviceClass s flow) := by
  unfold detectConnection
  split
  · exact .quiet rfl (.push _ _) rfl rfl rfl
  · split
    · exact .quiet rfl (.push _ _) rfl rfl rfl
    · exact .refl _

theorem processRequest_detects :
    Detects 0 (s, flow) (processRequest c header cip serviceClass s flow) :=
  (detectIdentityRead_detects c cip serviceClass s flow).trans <|
    (detectCommand_detects c header cip serviceClass _ flow _ _ _ _).trans <|
    (detectCommand_detects c header cip serviceClass _ flow _ _ _ _).trans <|
    (detectWriteBurst_detects c header cip serviceClass _ flow).trans <|
    detectConnection_detects c header cip serviceClass _ _

end Detectors

theorem sumCounts_eq_ok {counts : SortedMap UInt8 Nat} (h : countsTotal counts < 2 ^ 64) :
    sumCounts counts = .ok (countsTotal counts) := by
  unfold sumCounts countsTotal SortedMap.sumBy at *
  suffices hfold : ∀ (es : List (UInt8 × Nat)) (acc : Nat), acc + (es.map Prod.snd).sum < 2 ^ 64 →
      es.foldlM (fun acc e => checkedAdd 64 acc e.2) acc = .ok (acc + (es.map Prod.snd).sum) by
    rw [hfold counts.entries 0 (by omega), Nat.zero_add]
  intro es
  induction es with
  | nil => exact fun acc _ => rfl
  | cons e es ih =>
    intro acc hacc
    simp only [List.map_cons, List.sum_cons] at hacc ⊢
    have hadd : checkedAdd 64 acc e.2 = .ok (acc + e.2) := if_pos (by omega)
    rw [List.foldlM_cons, hadd, ok_bind, ih (acc + e.2) (by omega), Nat.add_assoc]

theorem expireErrorWindow_detects (c : Delivery) (s : EnipAnalyzer) (flow : EnipFlowState) :
    Detects 0 (s, flow) (s, expireErrorWindow c flow) := by
  unfold expireErrorWindow
  split
  · exact ⟨rfl, .refl _, rfl, rfl, Nat.zero_le _⟩
  · exact .refl _

theorem startErrorWindow_detects (c : Delivery) (s : EnipAnalyzer) (flow : EnipFlowState) :
    Detects 0 (s, flow) (s, startErrorWindow c flow) := by
  unfold startErrorWindow
  split
  · exact .quiet rfl (.refl _) rfl rfl rfl
  · exact .refl _

theorem detectErrorBurst_detects (c : Delivery) (s : EnipAnalyzer) (flow : EnipFlowState)
    (total : Nat) : Detects 0 (s, flow) (detectErrorBurst c s flow total) := by
  unfold detectErrorBurst
  split
  · split
    · exact .quiet rfl (.push _ _) rfl rfl rfl
    · exact .quiet rfl (.push _ _) rfl rfl rfl
  · exact .refl _

theorem countError_detects (c : Delivery) (s : EnipAnalyzer) (flow : EnipFlowState)
    (generalStatus : UInt8) :
    ReturnsIf (countsTotal flow.errorCountsInWindow + 1 < 2 ^ 64)
      (countError c s flow generalStatus) (Detects 1 (s, flow)) := by
  have hexpire := expireErrorWindow_detects c s flow
  have hle : countsTotal (expireErrorWindow c flow).errorCountsInWindow ≤
      countsTotal flow.errorCountsInWindow := hexpire.errorTotal
  unfold countError
  generalize expireErrorWindow c flow = flow₁ at hexpire hle ⊢
  refine ((countEntry_total 64 flow₁.errorCountsInWindow generalStatus).imp (by omega)).bind
    fun r hr => ?_
  have hone : Detects 1 (s, flow₁) (s, { flow₁ with errorCountsInWindow := r.1 }) :=
    ⟨rfl, .refl _, rfl, rfl, Nat.le_of_eq hr⟩
  have hstart := startErrorWindow_detects c s { flow₁ with errorCountsInWindow := r.1 }
  have hall := (hexpire.trans hone).trans hstart
  simp only
  generalize startErrorWindow c { flow₁ with errorCountsInWindow := r.1 } = flow₂ at hall ⊢
  have htotal : countsTotal flow₂.errorCountsInWindow ≤
      countsTotal flow.errorCountsInWindow + 1 := hall.errorTotal
  have hsum : ReturnsIf (countsTotal flow.errorCountsInWindow + 1 < 2 ^ 64)
      (sumCounts flow₂.errorCountsInWindow) (fun _ => True) :=
    ⟨fun hroom => ⟨_, sumCounts_eq_ok (by omega)⟩, fun _ _ => trivial⟩
  refine hsum.bind fun total _ => .pure ?_
  have hbook : Detects 0 (s, flow₂) ({ s with errorCount := bump64 s.errorCount }, flow₂) :=
    .quiet rfl (.refl _) rfl rfl rfl
  exact (hall.trans hbook).trans (detectErrorBurst_detects c _ flow₂ total)

theorem processItem_detects (c : Delivery) (header : EnipHeader)
    (w : EnipAnalyzer × EnipFlowState) (item : CpfItem) :
    ReturnsIf (countsTotal w.2.errorCountsInWindow + 1 < 2 ^ 64) (processItem c header w item)
      (Detects 1 w) := by
  have hnothing : Detects 1 w w := (Detects.refl w).mono (Nat.zero_le 1)
  unfold processItem
  split
  · exact .pure hnothing
  · split
    · exact .pure hnothing
    · simp only
      split
      · unfold processResponse
        split
        · exact .pure hnothing
        · simp only
          split
          · exact countError_detects c w.1 w.2 _
          · exact .pure hnothing
      · exact .pure ((processRequest_detects c header _ _ w.1 w.2).mono (Nat.zero_le 1))

theorem processItems_detects (c : Delivery) (header : EnipHeader) (items : List CpfItem)
    (w : EnipAnalyzer × EnipFlowState) :
    ReturnsIf (countsTotal w.2.errorCountsInWindow + items.length < 2 ^ 64)
      (run (processItem c header) w items) (Detects items.length w) := by
  induction items generalizing w with
  | nil => exact .pure (Detects.refl w)
  | cons item items ih =>
    rw [run_cons, List.length_cons]
    refine ((processItem_detects c header w item).imp (by omega)).bind fun w₁ h₁ => ?_
    have herrors := h₁.errorTotal
    refine ((ih w₁).imp (by omega)).mono fun w₂ h₂ => ?_
    rw [Nat.add_comm]
    exact h₁.trans h₂

theorem length_cpfItems (count : Nat) (data : List UInt8) :
    (cpfItems count data).length ≤ data.length := by
  induction count generalizing data with
  | zero => exact Nat.zero_le _
  | succ count ih =>
    rw [cpfItems]
    split
    · exact Nat.zero_le _
    · simp only
      split
      · exact Nat.zero_le _
      · have hrest := ih ((data.drop 4).drop (leU16At data 2).toNat)
        simp only [List.length_drop, List.length_cons] at hrest ⊢
        omega

theorem length_parseCpfItems (data : List UInt8) : (parseCpfItems data).length ≤ data.length := by
  unfold parseCpfItems
  split
  · exact Nat.zero_le _
  · have hitems := length_cpfItems (leU16At data 0).toNat (data.drop 2)
    rw [List.length_drop] at hitems
    omega

/-- A frame of the walk is counted once. -/
theorem processPdu_detects (c : Delivery) (w : EnipAnalyzer × EnipFlowState) (pdu : List UInt8)
    (hlen : 24 ≤ pdu.length) (hopen : w.2.isNonEnip = false) :
    ReturnsIf (countsTotal w.2.errorCountsInWindow + pdu.length < 2 ^ 64) (processPdu c w pdu)
      (Detects pdu.length (w.1, { w.2 with pduCount := bump64 w.2.pduCount })) := by
  have hnothing : Detects pdu.length (w.1, { w.2 with pduCount := bump64 w.2.pduCount })
      (w.1, { w.2 with pduCount := bump64 w.2.pduCount }) :=
    (Detects.refl _).mono (Nat.zero_le _)
  unfold processPdu
  rw [hopen, if_neg Bool.false_ne_true]
  cases hparse : parseEnipHeader pdu with
  | none =>
    have := parseEnipHeader_eq_none.mp hparse
    omega
  | some header =>
    simp only
    have hitems := length_parseCpfItems (pdu.drop cpfOffset)
    rw [List.length_drop] at hitems
    have hdata : ReturnsIf (countsTotal w.2.errorCountsInWindow + pdu.length < 2 ^ 64)
        (if pdu.length ≤ cpfOffset then
          .ok (w.1, { w.2 with pduCount := bump64 w.2.pduCount })
        else run (processItem c header) (w.1, { w.2 with pduCount := bump64 w.2.pduCount })
          (parseCpfItems (pdu.drop cpfOffset)))
        (Detects pdu.length (w.1, { w.2 with pduCount := bump64 w.2.pduCount })) := by
      split
      · exact .pure hnothing
      · exact ((processItems_detects c header _ _).imp (by simp only; omega)).mono
          fun w' hw' => hw'.mono (by omega)
    split
    · exact .pure ((detectListIdentity_detects c header w.1 _).mono (Nat.zero_le _))
    · exact hdata
    · exact hdata
    · exact .pure hnothing

/-! ## What stays over -/

/-- What may stay in a carry: too short for a header, or a frame that is not complete. -/
def Incomplete (buf : List UInt8) : Prop :=
  buf.length < 24 ∨ ∃ header, parseEnipHeader buf = some header ∧ isValidEnipFrame header = true ∧
    24 + header.length.toNat ≤ maxEnipCarryBytes ∧ buf.length < 24 + header.length.toNat

theorem Incomplete.length_le {buf : List UInt8} (h : Incomplete buf) : buf.length ≤ 599 := by
  rcases h with h | ⟨header, -, -, hmax, hlt⟩
  · omega
  · unfold maxEnipCarryBytes at hmax
    omega

theorem incomplete_of_turnOf {buf : List UInt8} (h : turnOf buf = none) : Incomplete buf := by
  unfold turnOf at h
  cases hparse : parseEnipHeader buf with
  | none => exact .inl (parseEnipHeader_eq_none.mp hparse)
  | some header =>
    simp only [hparse] at h
    split at h
    · cases h
    · rename_i hvalid
      split at h
      · cases h
      · rename_i hlong
        split at h
        · rename_i hpart
          exact .inr ⟨header, hparse, by simpa using hvalid, Nat.le_of_not_lt hlong, hpart⟩
        · cases h

theorem incomplete_rest (buf : List UInt8) : Incomplete (walkLexer.lex buf).2 :=
  incomplete_of_turnOf (walkLexer.head_rest buf)

theorem turnOf_frame {buf bytes : List UInt8} {command : UInt16} {n : Nat}
    (h : turnOf buf = some (.frame command bytes, n)) : bytes.length = n ∧ 24 ≤ n := by
  obtain ⟨-, hn⟩ := turnOf_bounds h
  unfold turnOf at h
  split at h
  · cases h
  · simp only at h
    split at h
    · cases h
    · split at h
      · cases h
      · split at h
        · cases h
        · cases h
          rw [List.length_take]
          omega

/-- How many bytes the frames hold. -/
def framesLength (tokens : List Token) : Nat := ((frames tokens).map List.length).sum

/-- Every byte of a frame is paid for by a byte. -/
theorem lex_frames (buf : List UInt8) :
    framesLength (walkLexer.lex buf).1 + (walkLexer.lex buf).2.length ≤ buf.length ∧
    ∀ bytes ∈ frames (walkLexer.lex buf).1, 24 ≤ bytes.length := by
  induction buf using walkLexer.lex_induction with
  | none buf hturn =>
    rw [walkLexer.lex_of_none hturn]
    exact ⟨by simp [framesLength, frames], by simp [frames]⟩
  | some buf token n hturn ih =>
    obtain ⟨hpos, hle⟩ := turnOf_bounds hturn
    obtain ⟨hframes, hlong⟩ := ih
    rw [List.length_drop] at hframes
    rw [walkLexer.lex_of_some hturn]
    cases token with
    | reject command =>
      refine ⟨?_, hlong⟩
      simp only [framesLength, frames] at hframes ⊢
      omega
    | frame command bytes =>
      obtain ⟨hbytes, hmin⟩ := turnOf_frame hturn
      constructor
      · simp only [framesLength, frames, List.map_cons, List.sum_cons] at hframes ⊢
        omega
      · intro b hb
        rcases List.mem_cons.mp hb with rfl | hb
        · omega
        · exact hlong b hb

/-! ## Counting -/

namespace Token

def command : Token → UInt16
  | .reject command => command
  | .frame command _ => command

end Token

def rejects : List Token → Nat
  | [] => 0
  | .reject _ :: tokens => rejects tokens + 1
  | .frame _ _ :: tokens => rejects tokens

theorem length_tokens (tokens : List Token) :
    tokens.length = (frames tokens).length + rejects tokens := by
  induction tokens with
  | nil => rfl
  | cons token tokens ih =>
    cases token with
    | reject command =>
      simp only [frames, rejects, List.length_cons]
      omega
    | frame command bytes =>
      simp only [frames, rejects, List.length_cons]
      omega

def tally (counts : SortedMap UInt16 Nat) (token : Token) : SortedMap UInt16 Nat :=
  counts.insert token.command ((counts.get? token.command).getD 0 + 1)

/-- The alarm has been raised, or there is no room for it. -/
def Alarmed (log : Capped Finding) (flow : EnipFlowState) : Prop :=
  flow.malformedInWindow ≥ malformedAnomalyThreshold →
    flow.malformedAnomalyEmitted = true ∨ maxFindings ≤ log.kept.length

theorem Alarmed.logged {log log' : Capped Finding} {flow : EnipFlowState} (h : Alarmed log flow)
    (hlog : Logged log log') : Alarmed log' flow := by
  intro hcount
  rcases h hcount with hset | hfull
  · exact .inl hset
  · exact .inr (Nat.le_trans hfull hlog.length_mono)

theorem checkT0814_eq (c : Delivery) (s : EnipAnalyzer) (flow : EnipFlowState)
    (hopen : flow.isNonEnip = false) :
    ∃ log emitted, checkT0814 c s flow =
        ({ s with findings := log }, { flow with malformedAnomalyEmitted := emitted }) ∧
      Logged s.findings log ∧ Alarmed log { flow with malformedAnomalyEmitted := emitted } := by
  unfold checkT0814
  split
  · by_cases hroom : hasRoom s.findings = true
    · rw [if_pos hroom]
      exact ⟨_, true, rfl, .push _ _, fun _ => .inl rfl⟩
    · rw [if_neg hroom]
      refine ⟨_, flow.malformedAnomalyEmitted, rfl, .push _ _, fun _ => .inr ?_⟩
      have hfull : maxFindings ≤ s.findings.kept.length := by simpa [hasRoom] using hroom
      exact Nat.le_trans hfull (Capped.Extends.push _ _).length_mono
  · rename_i hnot
    refine ⟨s.findings, flow.malformedAnomalyEmitted, rfl, .refl _, fun hcount => .inl ?_⟩
    simpa [hcount, hopen] using hnot

/-- What the walk does to a flow that it finds `tokens` in. -/
structure Counted (tokens : List Token) (w w' : EnipAnalyzer × EnipFlowState) : Prop where
  flows : w'.1.flows = w.1.flows
  findings : Logged w.1.findings w'.1.findings
  commandCounts : w'.2.commandCounts = tokens.foldl tally w.2.commandCounts
  total : countsTotal w'.2.commandCounts = countsTotal w.2.commandCounts + tokens.length
  parseErrors : w'.2.parseErrors = bump64^[rejects tokens] w.2.parseErrors
  malformedInWindow : w'.2.malformedInWindow = bump64^[rejects tokens] w.2.malformedInWindow
  same : ∃ counts errors malformed emitted, w'.2 = { w.2 with
    commandCounts := counts
    parseErrors := errors
    malformedInWindow := malformed
    malformedAnomalyEmitted := emitted }
  alarmed : Alarmed w.1.findings w.2 → Alarmed w'.1.findings w'.2

theorem rejects_cons (token : Token) (tokens : List Token) :
    rejects (token :: tokens) = rejects tokens + rejects [token] := by
  cases token with
  | reject command => rfl
  | frame command bytes => rfl

namespace Counted

theorem nil (w : EnipAnalyzer × EnipFlowState) : Counted [] w w :=
  ⟨rfl, .refl _, rfl, rfl, rfl, rfl, ⟨_, _, _, _, rfl⟩, id⟩

theorem cons {token : Token} {tokens : List Token} {w w' w'' : EnipAnalyzer × EnipFlowState}
    (h : Counted [token] w w') (h' : Counted tokens w' w'') : Counted (token :: tokens) w w'' where
  flows := h'.flows.trans h.flows
  findings := h.findings.trans h'.findings
  commandCounts := by rw [h'.commandCounts, h.commandCounts]; rfl
  total := by
    rw [h'.total, h.total]
    simp only [List.length_cons, List.length_nil]
    omega
  parseErrors := by
    rw [h'.parseErrors, h.parseErrors, rejects_cons token tokens, Function.iterate_add_apply]
  malformedInWindow := by
    rw [h'.malformedInWindow, h.malformedInWindow, rejects_cons token tokens,
      Function.iterate_add_apply]
  same := by
    obtain ⟨_, _, _, _, hflow⟩ := h.same
    obtain ⟨_, _, _, _, hflow'⟩ := h'.same
    exact ⟨_, _, _, _, by rw [hflow', hflow]⟩
  alarmed := fun ha => h'.alarmed (h.alarmed ha)

theorem isNonEnip {tokens : List Token} {w w' : EnipAnalyzer × EnipFlowState}
    (h : Counted tokens w w') : w'.2.isNonEnip = w.2.isNonEnip := by
  obtain ⟨_, _, _, _, hflow⟩ := h.same
  rw [hflow]

end Counted

theorem countCommand_returns (flow : EnipFlowState) (token : Token) :
    ReturnsIf (countsTotal flow.commandCounts + 1 < 2 ^ 64) (countCommand flow token.command)
      (fun flow' => flow' = { flow with commandCounts := tally flow.commandCounts token } ∧
        countsTotal flow'.commandCounts = countsTotal flow.commandCounts + 1) := by
  constructor
  · intro hroom
    obtain ⟨r, hr⟩ := countEntry_of_total hroom token.command
    exact ⟨_, bind_eq_ok.mpr ⟨r, hr, rfl⟩⟩
  · intro flow' h
    obtain ⟨r, hr, hflow⟩ := bind_eq_ok.mp h
    obtain ⟨hcount, hmap⟩ := countEntry_eq_ok hr
    cases hflow
    exact ⟨by rw [hmap, hcount]; rfl, countsTotal_countEntry hr⟩

theorem takeToken_counted (c : Delivery) (w : EnipAnalyzer × EnipFlowState) (token : Token)
    (hopen : w.2.isNonEnip = false) :
    ReturnsIf (countsTotal w.2.commandCounts + 1 < 2 ^ 64) (takeToken c w token)
      (Counted [token] w) := by
  have hcount := countCommand_returns w.2 token
  cases token with
  | frame command bytes =>
    refine hcount.bind fun flow hflow => .pure ?_
    obtain ⟨rfl, htotal⟩ := hflow
    exact ⟨rfl, .refl _, rfl, htotal, rfl, rfl, ⟨_, _, _, _, rfl⟩, id⟩
  | reject command =>
    refine hcount.bind fun flow hflow => .pure ?_
    obtain ⟨rfl, htotal⟩ := hflow
    obtain ⟨log, emitted, hcheck, hlog, halarm⟩ := checkT0814_eq c w.1
      (countMalformed { w.2 with commandCounts := tally w.2.commandCounts (.reject command) }) hopen
    rw [hcheck]
    exact ⟨rfl, hlog, rfl, htotal, rfl, rfl, ⟨_, _, _, _, rfl⟩, fun _ => halarm⟩

theorem takeTokens_counted (c : Delivery) (tokens : List Token)
    (w : EnipAnalyzer × EnipFlowState) (hopen : w.2.isNonEnip = false) :
    ReturnsIf (countsTotal w.2.commandCounts + tokens.length < 2 ^ 64)
      (run (takeToken c) w tokens) (Counted tokens w) := by
  induction tokens generalizing w with
  | nil => exact .pure (.nil w)
  | cons token tokens ih =>
    rw [run_cons, List.length_cons]
    refine ((takeToken_counted c w token hopen).imp (by omega)).bind fun w₁ h₁ => ?_
    have htotal := h₁.total
    rw [List.length_singleton] at htotal
    exact ((ih w₁ (h₁.isNonEnip.trans hopen)).imp (by omega)).mono fun w₂ h₂ => h₁.cons h₂

/-! ## One call -/

/-- The frames are given to `process_pdu` one after the other. -/
structure Dispatched (pdus : List (List UInt8)) (w w' : EnipAnalyzer × EnipFlowState) : Prop where
  flows : w'.1.flows = w.1.flows
  findings : Logged w.1.findings w'.1.findings
  view : w'.2.view = w.2.view
  pduCount : w'.2.pduCount = bump64^[pdus.length] w.2.pduCount
  errorTotal : countsTotal w'.2.errorCountsInWindow ≤
    countsTotal w.2.errorCountsInWindow + (pdus.map List.length).sum

theorem processPdus_dispatched (c : Delivery) (pdus : List (List UInt8))
    (w : EnipAnalyzer × EnipFlowState) (hlong : ∀ pdu ∈ pdus, 24 ≤ pdu.length)
    (hopen : w.2.isNonEnip = false) :
    ReturnsIf (countsTotal w.2.errorCountsInWindow + (pdus.map List.length).sum < 2 ^ 64)
      (run (processPdu c) w pdus) (Dispatched pdus w) := by
  induction pdus generalizing w with
  | nil => exact .pure ⟨rfl, .refl _, rfl, rfl, Nat.le_refl _⟩
  | cons pdu pdus ih =>
    rw [run_cons]
    simp only [List.map_cons, List.sum_cons]
    have hfirst := processPdu_detects c w pdu (hlong pdu List.mem_cons_self) hopen
    refine (hfirst.imp (by omega)).bind fun w₁ h₁ => ?_
    have hopen₁ : w₁.2.isNonEnip = false := (congrArg View.isNonEnip h₁.view).trans hopen
    have herrors : countsTotal w₁.2.errorCountsInWindow ≤
        countsTotal w.2.errorCountsInWindow + pdu.length := h₁.errorTotal
    have hrest := ih w₁ (fun p hp => hlong p (List.mem_cons_of_mem _ hp)) hopen₁
    refine (hrest.imp (by omega)).mono fun w₂ h₂ => ?_
    refine ⟨h₂.flows.trans h₁.flows, h₁.findings.trans h₂.findings, h₂.view.trans h₁.view, ?_, ?_⟩
    · rw [h₂.pduCount, h₁.pduCount]
      rfl
    · have := h₂.errorTotal
      simp only [List.map_cons, List.sum_cons]
      omega

/-- What a call does to the flow it is for, when the walk finds `tokens` and leaves `rest`. -/
structure Called (c : Delivery) (tokens : List Token) (rest : List UInt8)
    (flow flow' : EnipFlowState) : Prop where
  commandCounts : flow'.commandCounts = tokens.foldl tally flow.commandCounts
  total : countsTotal flow'.commandCounts = countsTotal flow.commandCounts + tokens.length
  parseErrors : flow'.parseErrors = bump64^[rejects tokens] flow.parseErrors
  malformedInWindow : flow'.malformedInWindow =
    bump64^[rejects tokens] (maybeExpireMalformedWindow flow c.ts).malformedInWindow
  pduCount : flow'.pduCount = bump64^[(frames tokens).length] flow.pduCount
  errorTotal : countsTotal flow'.errorCountsInWindow ≤
    countsTotal flow.errorCountsInWindow + framesLength tokens
  carry : flow'.carry c.direction = rest
  otherCarry : ∀ dir, dir ≠ c.direction → flow'.carry dir = flow.carry dir
  isNonEnip : flow'.isNonEnip = false
  malformedWindowStartTs : flow'.malformedWindowStartTs =
    (maybeExpireMalformedWindow flow c.ts).malformedWindowStartTs

/-- The flow that a call is for. -/
def flowOf (s : EnipAnalyzer) (flowKey : FlowKey) : EnipFlowState :=
  (s.flows.get? flowKey).getD {}

/-- The bytes a call looks at. -/
def bufferOf (flow : EnipFlowState) (c : Delivery) (data : List UInt8) : List UInt8 :=
  flow.carry c.direction ++ data

theorem maybeExpire_cases (flow : EnipFlowState) (ts : UInt32) :
    ∃ malformed emitted start, maybeExpireMalformedWindow flow ts = { flow with
        malformedInWindow := malformed
        malformedAnomalyEmitted := emitted
        malformedWindowStartTs := start } ∧
      ∀ log, Alarmed log flow → Alarmed log (maybeExpireMalformedWindow flow ts) := by
  unfold maybeExpireMalformedWindow
  split
  · exact ⟨_, _, _, rfl, fun log _ hcount => absurd (show 0 ≥ 3 from hcount) (by decide)⟩
  · exact ⟨_, _, _, rfl, fun log h => h⟩

section Carry

variable (flow : EnipFlowState) (dir : Direction) (bytes : List UInt8)

theorem carry_setCarry : (flow.setCarry dir bytes).carry dir = bytes := by
  cases dir with
  | clientToServer => rfl
  | serverToClient => rfl

theorem carry_setCarry_of_ne {other : Direction} (h : other ≠ dir) :
    (flow.setCarry dir bytes).carry other = flow.carry other := by
  refine Direction.ne_cases ?_ ?_ h
  · rfl
  · rfl

theorem setCarry_cases :
    ∃ c2s s2c, flow.setCarry dir bytes = { flow with carryC2s := c2s, carryS2c := s2c } := by
  cases dir with
  | clientToServer => exact ⟨_, _, rfl⟩
  | serverToClient => exact ⟨_, _, rfl⟩

end Carry

theorem stash_of_incomplete (c : Delivery) (w : Walked) (h : Incomplete w.rest) :
    stash c w = (w.analyzer, w.flow.setCarry c.direction w.rest) := by
  have hlen := h.length_le
  unfold stash
  simp only [carry_setCarry]
  exact if_neg (by unfold maxEnipCarryBytes; omega)

/-- The walk and the dispatch, put together. -/
theorem called_of_counted {c : Delivery} {tokens : List Token} {rest : List UInt8}
    {s : EnipAnalyzer} {flow : EnipFlowState} {w w' : EnipAnalyzer × EnipFlowState}
    (hopen : flow.isNonEnip = false)
    (hw : Counted tokens
      (s, (maybeExpireMalformedWindow flow c.ts).setCarry c.direction []) w)
    (hw' : Dispatched (frames tokens) (w.1, w.2.setCarry c.direction rest) w') :
    Called c tokens rest flow w'.2 ∧
      (Alarmed s.findings flow → Alarmed w'.1.findings w'.2) := by
  have hcarry : w.2.carry = ((maybeExpireMalformedWindow flow c.ts).setCarry c.direction []).carry
      := by
    obtain ⟨_, _, _, _, hsame⟩ := hw.same
    rw [hsame]
    rfl
  obtain ⟨malformed, emitted, start, hexpire, halarm⟩ := maybeExpire_cases flow c.ts
  obtain ⟨c2s, s2c, hclear⟩ := setCarry_cases (maybeExpireMalformedWindow flow c.ts) c.direction []
  obtain ⟨c2s', s2c', hstash⟩ := setCarry_cases w.2 c.direction rest
  have hview := hw'.view
  have hpdu := hw'.pduCount
  have herrors := hw'.errorTotal
  have hother : ∀ dir, dir ≠ c.direction → w'.2.carry dir = flow.carry dir := by
    intro dir hdir
    rw [carry_eq_of_view hview, carry_setCarry_of_ne _ _ _ hdir, hcarry,
      carry_setCarry_of_ne _ _ _ hdir, hexpire]
    rfl
  have hrest : w'.2.carry c.direction = rest := by rw [carry_eq_of_view hview, carry_setCarry]
  rw [hstash] at hview hpdu herrors
  rw [hclear, hexpire] at hw
  obtain ⟨_, _, _, _, hsame⟩ := hw.same
  rw [hsame] at hpdu herrors
  constructor
  · constructor
    case commandCounts => exact (congrArg View.commandCounts hview).trans hw.commandCounts
    case total =>
      exact (congrArg (fun v => countsTotal v.commandCounts) hview).trans hw.total
    case parseErrors => exact (congrArg View.parseErrors hview).trans hw.parseErrors
    case malformedInWindow =>
      rw [hexpire]
      exact (congrArg View.malformedInWindow hview).trans hw.malformedInWindow
    case pduCount => exact hpdu
    case errorTotal => exact herrors
    case carry => exact hrest
    case otherCarry => exact hother
    case isNonEnip => exact (congrArg View.isNonEnip hview).trans (hw.isNonEnip.trans hopen)
    case malformedWindowStartTs =>
      rw [hsame] at hview
      rw [hexpire]
      exact congrArg View.malformedWindowStartTs hview
  · intro ha hcount
    have hexpired : Alarmed s.findings (maybeExpireMalformedWindow flow c.ts) := halarm _ ha
    rw [hexpire] at hexpired
    have hend := (hw.alarmed hexpired).logged hw'.findings
    rw [show w'.2.malformedAnomalyEmitted = w.2.malformedAnomalyEmitted from
      congrArg View.malformedAnomalyEmitted hview]
    have hsameCount : w'.2.malformedInWindow = w.2.malformedInWindow :=
      congrArg View.malformedInWindow hview
    exact hend (hsameCount ▸ hcount)

theorem onData_called (s : EnipAnalyzer) (c : Delivery) (data : List UInt8)
    (hopen : (flowOf s c.flowKey).isNonEnip = false) :
    let flow := flowOf s c.flowKey
    let buf := bufferOf flow c data
    ReturnsIf (countsTotal flow.commandCounts + buf.length < 2 ^ 64 ∧
        countsTotal flow.errorCountsInWindow + buf.length < 2 ^ 64)
      (onData s c data)
      (fun s' => ∃ flow', s'.flows = (s.flows.erase c.flowKey).insert c.flowKey flow' ∧
        Logged s.findings s'.findings ∧
        Called c (walkLexer.lex buf).1 (walkLexer.lex buf).2 flow flow' ∧
        (Alarmed s.findings flow → Alarmed s'.findings flow')) := by
  intro flow buf
  obtain ⟨malformed, emitted, start, hexpire, halarm⟩ := maybeExpire_cases flow c.ts
  have hbuf : (maybeExpireMalformedWindow flow c.ts).carry c.direction ++ data = buf := by
    rw [hexpire]
    rfl
  obtain ⟨hframes, hlong⟩ := lex_frames buf
  have htokens := walkLexer.length_lex buf
  have hopen' : flow.isNonEnip = false := hopen
  unfold onData
  simp only [show (s.flows.get? c.flowKey).getD {} = flow from rfl, hopen', Bool.false_eq_true,
    if_false, hbuf]
  rw [walk_eq, walkLexer.scan_of_le (Nat.le_refl _), bind_bind]
  obtain ⟨c2s, s2c, hclear⟩ := setCarry_cases (maybeExpireMalformedWindow flow c.ts) c.direction []
  have hcounted := takeTokens_counted c (walkLexer.lex buf).1
    ({ s with
      bytesReceived := min (s.bytesReceived + data.length) (2 ^ 64 - 1)
      flows := s.flows.erase c.flowKey },
      (maybeExpireMalformedWindow flow c.ts).setCarry c.direction [])
    (by rw [hclear, hexpire]; exact hopen')
  have hcounts : ((maybeExpireMalformedWindow flow c.ts).setCarry c.direction []).commandCounts =
      flow.commandCounts := by rw [hclear, hexpire]
  refine (hcounted.imp fun hroom => ?_).bind fun w hw => ?_
  · simp only [hcounts]
    omega
  rw [ok_bind, stash_of_incomplete c _ (incomplete_rest buf)]
  obtain ⟨_, _, _, _, hsame⟩ := hw.same
  obtain ⟨_, _, hstash⟩ := setCarry_cases w.2 c.direction (walkLexer.lex buf).2
  have hdispatch := processPdus_dispatched c (frames (walkLexer.lex buf).1)
    (w.1, w.2.setCarry c.direction (walkLexer.lex buf).2) hlong
    (by rw [hstash, hsame, hclear, hexpire]; exact hopen')
  have herrors : (w.2.setCarry c.direction (walkLexer.lex buf).2).errorCountsInWindow =
      flow.errorCountsInWindow := by rw [hstash, hsame, hclear, hexpire]
  refine (hdispatch.imp fun hroom => ?_).bind fun w' hw' => .pure ?_
  · unfold framesLength at hframes
    simp only [herrors]
    omega
  obtain ⟨hcalled, halarmed⟩ := called_of_counted hopen' hw hw'
  exact ⟨w'.2, by rw [hw'.flows, hw.flows], hw.findings.trans hw'.findings, hcalled, halarmed⟩

/-! ## Runs -/

structure Call where
  delivery : Delivery
  data : List UInt8

def onCall (s : EnipAnalyzer) (call : Call) : Checked EnipAnalyzer :=
  onData s call.delivery call.data

def totalBytes (calls : List Call) : Nat := (calls.map fun call => call.data.length).sum

/-- What holds of every flow after every call. -/
structure FlowOk (log : Capped Finding) (flow : EnipFlowState) : Prop where
  carries : ∀ dir, Incomplete (flow.carry dir)
  isNonEnip : flow.isNonEnip = false
  alarmed : Alarmed log flow

/-- Counters that saturate, over `n` bytes. -/
structure Books (n : Nat) (flow : EnipFlowState) : Prop where
  commands : countsTotal flow.commandCounts + flow.carryC2s.length + flow.carryS2c.length ≤ n
  errors : countsTotal flow.errorCountsInWindow + flow.carryC2s.length + flow.carryS2c.length ≤ n
  balanced : ∃ pdus errors, flow.pduCount = min pdus (2 ^ 64 - 1) ∧
    flow.parseErrors = min errors (2 ^ 64 - 1) ∧ countsTotal flow.commandCounts = pdus + errors

theorem carries_length {flow flow' : EnipFlowState} {dir : Direction}
    (h : ∀ other, other ≠ dir → flow'.carry other = flow.carry other) :
    flow'.carryC2s.length + flow'.carryS2c.length + (flow.carry dir).length =
      flow.carryC2s.length + flow.carryS2c.length + (flow'.carry dir).length := by
  cases dir with
  | clientToServer =>
    have hother : flow'.carryS2c = flow.carryS2c := h .serverToClient (by simp)
    rw [hother]
    simp only [EnipFlowState.carry]
    omega
  | serverToClient =>
    have hother : flow'.carryC2s = flow.carryC2s := h .clientToServer (by simp)
    rw [hother]
    simp only [EnipFlowState.carry]
    omega

theorem Called.books {c : Delivery} {tokens : List Token} {rest : List UInt8} {n bytes : Nat}
    {flow flow' : EnipFlowState} (h : Called c tokens rest flow flow') (hbooks : Books n flow)
    (htokens : tokens.length + rest.length ≤ (flow.carry c.direction).length + bytes)
    (hframes : framesLength tokens + rest.length ≤ (flow.carry c.direction).length + bytes) :
    Books (n + bytes) flow' := by
  have hcarries := carries_length h.otherCarry
  have htotal := h.total
  have herrors := h.errorTotal
  have hcommands := hbooks.commands
  have hcounted := hbooks.errors
  rw [h.carry] at hcarries
  obtain ⟨pdus, errors, hpdus, hparse, hsum⟩ := hbooks.balanced
  refine ⟨by omega, by omega, pdus + (frames tokens).length, errors + rejects tokens, ?_, ?_, ?_⟩
  · rw [h.pduCount, hpdus, bump64_iterate]
  · rw [h.parseErrors, hparse, bump64_iterate]
  · have := length_tokens tokens
    omega

/-- What holds of the analyzer after `n` bytes. -/
structure Walks (n : Nat) (s : EnipAnalyzer) : Prop where
  findings : s.findings.kept.length ≤ maxFindings
  flows : ∀ flowKey, FlowOk s.findings (flowOf s flowKey)
  books : ∀ flowKey, Books n (flowOf s flowKey)

theorem flowOf_insert {s s' : EnipAnalyzer} {flowKey : FlowKey} {flow : EnipFlowState}
    (h : s'.flows = (s.flows.erase flowKey).insert flowKey flow) :
    flowOf s' flowKey = flow ∧ ∀ other, other ≠ flowKey → flowOf s' other = flowOf s other := by
  unfold flowOf
  rw [h]
  refine ⟨by rw [SortedMap.get?_insert_self, Option.getD_some], fun other hne => ?_⟩
  rw [SortedMap.get?_insert_of_ne _ _ hne, SortedMap.get?_erase_of_ne _ hne]

theorem onCall_walks {n : Nat} {s : EnipAnalyzer} (h : Walks n s) (call : Call) :
    ReturnsIf (n + call.data.length < 2 ^ 64) (onCall s call) (Walks (n + call.data.length)) := by
  have hok := h.flows call.delivery.flowKey
  have hbooks := h.books call.delivery.flowKey
  have hcommands := hbooks.commands
  have herrors := hbooks.errors
  have hbuf : (bufferOf (flowOf s call.delivery.flowKey) call.delivery call.data).length =
      ((flowOf s call.delivery.flowKey).carry call.delivery.direction).length +
        call.data.length := List.length_append
  have hcarry : ((flowOf s call.delivery.flowKey).carry call.delivery.direction).length ≤
      (flowOf s call.delivery.flowKey).carryC2s.length +
        (flowOf s call.delivery.flowKey).carryS2c.length := by
    cases call.delivery.direction with
    | clientToServer => exact Nat.le_add_right _ _
    | serverToClient => exact Nat.le_add_left _ _
  have hcall := onData_called s call.delivery call.data hok.isNonEnip
  refine (hcall.imp fun hroom => ⟨by omega, by omega⟩).mono fun s' hs' => ?_
  obtain ⟨flow', hflows, hlog, hcalled, halarmed⟩ := hs'
  obtain ⟨hself, hothers⟩ := flowOf_insert hflows
  refine ⟨hlog.length_le h.findings, fun key => ?_, fun key => ?_⟩
  · by_cases hkey : key = call.delivery.flowKey
    · rw [hkey, hself]
      refine ⟨fun dir => ?_, hcalled.isNonEnip, halarmed hok.alarmed⟩
      by_cases hdir : dir = call.delivery.direction
      · rw [hdir, hcalled.carry]
        exact incomplete_rest _
      · rw [hcalled.otherCarry dir hdir]
        exact hok.carries dir
    · rw [hothers key hkey]
      have hold := h.flows key
      exact ⟨hold.carries, hold.isNonEnip, hold.alarmed.logged hlog⟩
  · by_cases hkey : key = call.delivery.flowKey
    · rw [hkey, hself]
      have htokens := walkLexer.length_lex
        (bufferOf (flowOf s call.delivery.flowKey) call.delivery call.data)
      obtain ⟨hframes, -⟩ :=
        lex_frames (bufferOf (flowOf s call.delivery.flowKey) call.delivery call.data)
      rw [hbuf] at htokens hframes
      exact hcalled.books hbooks htokens hframes
    · rw [hothers key hkey]
      have hold := h.books key
      exact ⟨Nat.le_add_right_of_le hold.commands, Nat.le_add_right_of_le hold.errors,
        hold.balanced⟩

theorem flowOk_new (log : Capped Finding) : FlowOk log {} where
  carries := fun dir => by
    cases dir with
    | clientToServer => exact .inl (by decide)
    | serverToClient => exact .inl (by decide)
  isNonEnip := rfl
  alarmed := fun hcount => absurd (show 0 ≥ 3 from hcount) (by decide)

theorem walks_new (writeBurst errorBurst : UInt32) : Walks 0 (.new writeBurst errorBurst) where
  findings := Nat.zero_le _
  flows := fun _ => flowOk_new _
  books := fun _ => ⟨Nat.le_refl _, Nat.le_refl _, 0, 0, rfl, rfl, rfl⟩

theorem run_keeps_walks {n : Nat} {s : EnipAnalyzer} (calls : List Call) (h : Walks n s) :
    ReturnsIf (n + totalBytes calls < 2 ^ 64) (run onCall s calls)
      (Walks (n + totalBytes calls)) := by
  induction calls generalizing n s with
  | nil => exact .pure h
  | cons call calls ih =>
    have hsum : totalBytes (call :: calls) = call.data.length + totalBytes calls := rfl
    rw [run_cons, hsum, ← Nat.add_assoc]
    exact ((onCall_walks h call).imp (by omega)).bind fun s₁ h₁ => ih h₁

/-- Every run comes back as long as fewer than `2^64` bytes are given to it. The walk of a call
ends by itself, and every state that is reached has short carries, no latched flow, all its
alarms raised, and counters that agree. -/
theorem run_walks (writeBurst errorBurst : UInt32) (calls : List Call) :
    (∀ c s flow buf turns, buf.length ≤ turns →
      walk c turns s flow buf = walk c buf.length s flow buf) ∧
    (totalBytes calls < 2 ^ 64 → ∃ s, run onCall (.new writeBurst errorBurst) calls = .ok s) ∧
    (∀ s, run onCall (.new writeBurst errorBurst) calls = .ok s →
      s.findings.kept.length ≤ maxFindings ∧
      ∀ flowKey flow, s.flows.get? flowKey = some flow →
        (∀ dir, (flow.carry dir).length ≤ 599 ∧ Incomplete (flow.carry dir)) ∧
        flow.isNonEnip = false ∧
        (totalBytes calls < 2 ^ 64 →
          countsTotal flow.commandCounts = flow.pduCount + flow.parseErrors) ∧
        (flow.malformedInWindow ≥ 3 →
          flow.malformedAnomalyEmitted = true ∨ s.findings.kept.length = maxFindings)) := by
  obtain ⟨hreturns, hwalks⟩ := run_keeps_walks calls (walks_new writeBurst errorBurst)
  rw [Nat.zero_add] at hreturns hwalks
  refine ⟨fun c s flow buf turns hle => ?_, hreturns, fun s hs => ?_⟩
  · rw [walk_eq, walk_eq, walkLexer.scan_of_le hle, walkLexer.scan_of_le (Nat.le_refl _)]
  · have hinv := hwalks s hs
    refine ⟨hinv.findings, fun flowKey flow hget => ?_⟩
    have hflow : flowOf s flowKey = flow := by rw [flowOf, hget, Option.getD_some]
    have hok := hinv.flows flowKey
    have hbooks := hinv.books flowKey
    rw [hflow] at hok hbooks
    refine ⟨fun dir => ⟨(hok.carries dir).length_le, hok.carries dir⟩, hok.isNonEnip, ?_, ?_⟩
    · intro hbytes
      obtain ⟨pdus, errors, hpdus, hparse, hsum⟩ := hbooks.balanced
      have hcommands := hbooks.commands
      omega
    · intro hcount
      rcases hok.alarmed hcount with hset | hfull
      · exact .inl hset
      · exact .inr (Nat.le_antisymm hinv.findings hfull)

def adapterKey : FlowKey := .new (.v4 1) 1024 (.v4 2) 44818

theorem run_walks_half_header :
    let calls : List Call := [⟨⟨adapterKey, 0, .clientToServer⟩, [0x65, 0, 4, 0]⟩]
    totalBytes calls < 2 ^ 64 ∧
    ∃ s, run onCall (.new 50 10) calls = .ok s ∧ s.findings.kept.length ≤ maxFindings := by
  obtain ⟨-, hreturns, hwalks⟩ :=
    run_walks 50 10 [⟨⟨adapterKey, 0, .clientToServer⟩, [0x65, 0, 4, 0]⟩]
  obtain ⟨s, hs⟩ := hreturns (by decide)
  exact ⟨by decide, s, hs, (hwalks s hs).1⟩

end Wirerust.Enip
