import Wirerust.Analyzer.EnipWalk
import Wirerust.Analyzer.Summaries

/-!
Closing EtherNet/IP flows (`on_flow_close` and `summarize` of `analyzer/enip.rs`).

The sums of the closed flows saturate, and so does the summary when it adds the open flows to them,
so it stays the same whatever the counters are (`summarize_onFlowClose`). `on_data` neither reads
nor writes these sums, nor the other flows: it does the same on top of any table (`onto`), and so
does not see which other flows have been closed (`onData_onFlowClose`).
-/

namespace Wirerust.Enip

open Lib Wirerust.Flow Wirerust.Analyzer Wirerust.Terminal

/-! ## The summary -/

/-- The sums over the flows that `summarize` makes. -/
structure Totals where
  totalPduCount : Nat
  parseErrors : Nat
  commandDistribution : SortedMap UInt16 Nat
  flowCount : Nat

/-- One flow of the table. -/
def addFlow (t : Totals) (e : FlowKey × EnipFlowState) : Totals where
  totalPduCount := saturatingAdd t.totalPduCount e.2.pduCount
  parseErrors := saturatingAdd t.parseErrors e.2.parseErrors
  commandDistribution := e.2.commandCounts.entries.foldl addCommands t.commandDistribution
  flowCount := bump64 t.flowCount

def closedTotals (s : EnipAnalyzer) : Totals where
  totalPduCount := s.totalPduCount
  parseErrors := s.parseErrors
  commandDistribution := s.commandDistribution
  flowCount := 0

def enipSummary (s : EnipAnalyzer) (t : Totals) : List (String × Value) :=
  (collect [
    ("command_distribution", .object (collect ((t.commandDistribution.entries.filter
      fun e => e.2 > 0).map fun e => (hexWord e.1, Value.number e.2))).entries),
    ("total_pdu_count", .number t.totalPduCount),
    ("parse_errors", .number t.parseErrors),
    ("write_count", .number s.writeCount),
    ("error_count", .number s.errorCount),
    ("flows_analyzed", .number (saturatingAdd s.flowsAnalyzed t.flowCount)),
    ("dropped_findings", .number s.findings.dropped)]).entries

def summarize (s : EnipAnalyzer) : AnalysisSummary Value :=
  let t := s.flows.entries.foldl addFlow (closedTotals s)
  { analyzerName := "EtherNet/IP"
    packetsAnalyzed := t.totalPduCount
    detail := collect [("enip_summary", .object (enipSummary s t))] }

theorem onFlowClose_of_none {s : EnipAnalyzer} {flowKey : FlowKey}
    (h : s.flows.get? flowKey = none) : onFlowClose s flowKey = s := by
  rw [onFlowClose, h]

theorem addCommands_comm (distribution : SortedMap UInt16 Nat) (e e' : UInt16 × Nat) :
    addCommands (addCommands distribution e) e' = addCommands (addCommands distribution e') e := by
  apply SortedMap.ext_get?
  intro command
  unfold addCommands
  by_cases hsame : e.1 = e'.1
  · have hcount := saturatingAdd_right_comm ((distribution.get? e'.1).getD 0) e.2 e'.2
    unfold saturatingAdd at hcount
    rw [hsame]
    simp only [SortedMap.get?_insert_self, SortedMap.insert_insert, Option.getD_some, hcount]
  · have hfirst := SortedMap.get?_insert_of_ne (k := e.1) distribution
      (min ((distribution.get? e.1).getD 0 + e.2) (2 ^ 64 - 1)) (Ne.symm hsame)
    have hsecond := SortedMap.get?_insert_of_ne (k := e'.1) distribution
      (min ((distribution.get? e'.1).getD 0 + e'.2) (2 ^ 64 - 1)) hsame
    rw [hfirst, hsecond]
    by_cases hcommand : command = e.1
    · rw [hcommand, SortedMap.get?_insert_self, SortedMap.get?_insert_of_ne _ _ hsame,
        SortedMap.get?_insert_self]
    · by_cases hcommand' : command = e'.1
      · rw [hcommand', SortedMap.get?_insert_self,
          SortedMap.get?_insert_of_ne _ _ (Ne.symm hsame), SortedMap.get?_insert_self]
      · simp only [SortedMap.get?_insert_of_ne _ _ hcommand,
          SortedMap.get?_insert_of_ne _ _ hcommand']

theorem foldl_addCommands_comm (es es' : List (UInt16 × Nat))
    (distribution : SortedMap UInt16 Nat) :
    es'.foldl addCommands (es.foldl addCommands distribution) =
      es.foldl addCommands (es'.foldl addCommands distribution) := by
  rw [← List.foldl_append, ← List.foldl_append]
  exact List.perm_append_comm.foldl_eq' (fun e _ e' _ d => addCommands_comm d e e') distribution

theorem addFlow_comm (t : Totals) (e e' : FlowKey × EnipFlowState) :
    addFlow (addFlow t e) e' = addFlow (addFlow t e') e := by
  unfold addFlow
  rw [saturatingAdd_right_comm t.totalPduCount, saturatingAdd_right_comm t.parseErrors,
    foldl_addCommands_comm]

/-- The count of the flows is a sum of its own. -/
theorem foldl_addFlow_count (es : List (FlowKey × EnipFlowState)) (t : Totals) {n : Nat}
    (hn : n ≤ 2 ^ 64 - 1) : es.foldl addFlow { t with flowCount := n } =
      { es.foldl addFlow t with flowCount := saturatingAdd n es.length } := by
  induction es generalizing t n with
  | nil =>
    have hzero : saturatingAdd n 0 = n := by
      unfold saturatingAdd
      omega
    rw [List.foldl_nil, List.foldl_nil, List.length_nil, hzero]
  | cons e es ih =>
    have hfirst : addFlow { t with flowCount := n } e =
        { addFlow t e with flowCount := bump64 n } := rfl
    have hbump : bump64 n ≤ 2 ^ 64 - 1 := by
      unfold bump64 saturatingInc
      omega
    have hcount : saturatingAdd (bump64 n) es.length = saturatingAdd n (es.length + 1) := by
      unfold saturatingAdd bump64 saturatingInc
      omega
    rw [List.foldl_cons, List.foldl_cons, hfirst, ih (addFlow t e) hbump, hcount]
    rfl

theorem summarize_onFlowClose (s : EnipAnalyzer) (flowKey : FlowKey) :
    summarize (onFlowClose s flowKey) = summarize s := by
  cases hget : s.flows.get? flowKey with
  | none => rw [onFlowClose_of_none hget]
  | some flow =>
    have hclosed : onFlowClose s flowKey = { s with
        flows := s.flows.erase flowKey
        totalPduCount := saturatingAdd s.totalPduCount flow.pduCount
        parseErrors := saturatingAdd s.parseErrors flow.parseErrors
        commandDistribution := flow.commandCounts.entries.foldl addCommands s.commandDistribution
        flowsAnalyzed := bump64 s.flowsAnalyzed } := by
      rw [onFlowClose, hget]
      rfl
    have hall := SortedMap.foldl_erase hget addFlow_comm (closedTotals s)
    have hopen := fun n (hn : n ≤ 2 ^ 64 - 1) =>
      foldl_addFlow_count (s.flows.erase flowKey).entries (closedTotals (onFlowClose s flowKey)) hn
    have hone : addFlow (closedTotals s) (flowKey, flow) =
        { closedTotals (onFlowClose s flowKey) with flowCount := 1 } := by
      rw [hclosed]
      rfl
    have hzero : closedTotals (onFlowClose s flowKey) =
        { closedTotals (onFlowClose s flowKey) with flowCount := 0 } := by
      rw [hclosed]
      rfl
    rw [hone, hopen 1 (by decide)] at hall
    have hflows : (onFlowClose s flowKey).flows = s.flows.erase flowKey := by rw [hclosed]
    unfold summarize
    rw [hall, hflows, hzero, hopen 0 (by decide)]
    have hcount : saturatingAdd (bump64 s.flowsAnalyzed)
          (saturatingAdd 0 (s.flows.erase flowKey).entries.length) =
        saturatingAdd s.flowsAnalyzed (saturatingAdd 1 (s.flows.erase flowKey).entries.length) := by
      unfold saturatingAdd bump64 saturatingInc
      omega
    have hanalyzed : (onFlowClose s flowKey).flowsAnalyzed = bump64 s.flowsAnalyzed := by
      rw [hclosed]
    simp only [enipSummary, hanalyzed, hcount]
    rw [hclosed]

/-! ## On top of another table -/

/-- The analyzer on top of the table and the sums of `b`. -/
def EnipAnalyzer.onto (s b : EnipAnalyzer) : EnipAnalyzer :=
  { s with
    flows := b.flows
    totalPduCount := b.totalPduCount
    parseErrors := b.parseErrors
    commandDistribution := b.commandDistribution
    flowsAnalyzed := b.flowsAnalyzed }

def lift (b : EnipAnalyzer) (v : EnipAnalyzer × EnipFlowState) : EnipAnalyzer × EnipFlowState :=
  (v.1.onto b, v.2)

section Onto

variable (s b : EnipAnalyzer)

@[simp] theorem findings_onto : (s.onto b).findings = s.findings := rfl

theorem emit_onto (finding : Finding) : emit (s.onto b) finding = (emit s finding).onto b := rfl

variable (c : Delivery) (header : EnipHeader) (cip : CipHeader) (serviceClass : CipServiceClass)
  (flow : EnipFlowState)

theorem checkT0814_onto : checkT0814 c (s.onto b) flow = lift b (checkT0814 c s flow) := by
  unfold checkT0814
  simp only [findings_onto, emit_onto]
  split
  · rfl
  · rfl

theorem detectListIdentity_onto :
    detectListIdentity c header (s.onto b) flow = lift b (detectListIdentity c header s flow) := by
  unfold detectListIdentity
  simp only [findings_onto, emit_onto]
  split
  · rfl
  · rfl

theorem detectErrorBurst_onto (total : Nat) :
    detectErrorBurst c (s.onto b) flow total = lift b (detectErrorBurst c s flow total) := by
  unfold detectErrorBurst
  by_cases hdue : (total > s.enipErrorBurstThreshold.toNat && !flow.errorRateEmitted) = true
  · rw [if_pos hdue]
    exact if_pos hdue
  · rw [if_neg hdue]
    exact if_neg hdue

theorem countError_onto (generalStatus : UInt8) :
    countError c (s.onto b) flow generalStatus =
      (countError c s flow generalStatus).map (lift b) := by
  unfold countError
  rw [map_bind]
  refine bind_congr_ok fun r _ => ?_
  rw [map_bind]
  refine bind_congr_ok fun total _ => ?_
  exact congrArg Except.ok
    (detectErrorBurst_onto { s with errorCount := bump64 s.errorCount } b c _ total)

theorem processResponse_onto (itemData : List UInt8) :
    processResponse c (s.onto b) flow itemData =
      (processResponse c s flow itemData).map (lift b) := by
  unfold processResponse
  split
  · rfl
  · simp only
    split
    · exact countError_onto s b c flow _
    · rfl

theorem detectIdentityRead_onto : detectIdentityRead c cip serviceClass (s.onto b) =
    (detectIdentityRead c cip serviceClass s).onto b := by
  unfold detectIdentityRead
  split
  · split
    · rfl
    · rfl
  · rfl

theorem detectCommand_onto (wanted : CipServiceClass) (summary name technique : String) :
    detectCommand c header cip serviceClass (s.onto b) wanted summary name technique =
      (detectCommand c header cip serviceClass s wanted summary name technique).onto b := by
  unfold detectCommand
  split
  · rfl
  · rfl

theorem detectWriteBurst_onto : detectWriteBurst c header cip serviceClass (s.onto b) flow =
    lift b (detectWriteBurst c header cip serviceClass s flow) := by
  unfold detectWriteBurst
  split
  · by_cases hdue : ((countWrite c flow).writeCountInWindow > s.enipWriteBurstThreshold.toNat &&
        !(countWrite c flow).writeBurstEmitted) = true
    · simp only
      rw [if_pos hdue]
      exact if_pos hdue
    · simp only
      rw [if_neg hdue]
      exact if_neg hdue
  · rfl

theorem detectConnection_onto : detectConnection c header cip serviceClass (s.onto b) flow =
    lift b (detectConnection c header cip serviceClass s flow) := by
  unfold detectConnection
  split
  · rfl
  · split
    · rfl
    · rfl

theorem processRequest_onto : processRequest c header cip serviceClass (s.onto b) flow =
    lift b (processRequest c header cip serviceClass s flow) := by
  unfold processRequest detectStop detectReset
  simp only [detectIdentityRead_onto, detectCommand_onto, detectWriteBurst_onto]
  exact detectConnection_onto _ b c header cip serviceClass _

theorem processItem_onto (v : EnipAnalyzer × EnipFlowState) (item : CpfItem) :
    processItem c header (lift b v) item = (processItem c header v item).map (lift b) := by
  unfold processItem
  split
  · rfl
  · split
    · rfl
    · simp only
      split
      · exact processResponse_onto v.1 b c v.2 item.data
      · exact congrArg Except.ok (processRequest_onto v.1 b c header _ _ v.2)

theorem processPdu_onto (v : EnipAnalyzer × EnipFlowState) (pdu : List UInt8) :
    processPdu c (lift b v) pdu = (processPdu c v pdu).map (lift b) := by
  have hdata : ∀ header items (v : EnipAnalyzer × EnipFlowState),
      run (processItem c header) (lift b v) items =
        (run (processItem c header) v items).map (lift b) :=
    fun header items v => run_map (fun v item _ => processItem_onto b c header v item) v
  unfold processPdu
  by_cases hnon : v.2.isNonEnip = true
  · rw [if_pos hnon]
    exact if_pos hnon
  rw [if_neg hnon]
  refine (if_neg hnon).trans ?_
  cases parseEnipHeader pdu with
  | none => rfl
  | some header =>
    simp only
    split
    · exact congrArg Except.ok (detectListIdentity_onto v.1 b c header _)
    · split
      · rfl
      · exact hdata header _ (v.1, { v.2 with pduCount := bump64 v.2.pduCount })
    · split
      · rfl
      · exact hdata header _ (v.1, { v.2 with pduCount := bump64 v.2.pduCount })
    · rfl

theorem takeToken_onto (v : EnipAnalyzer × EnipFlowState) (token : Token) :
    takeToken c (lift b v) token = (takeToken c v token).map (lift b) := by
  cases token with
  | reject command =>
    show countCommand v.2 command >>= _ = Except.map (lift b) (countCommand v.2 command >>= _)
    rw [map_bind]
    exact bind_congr_ok fun flow _ => congrArg Except.ok (checkT0814_onto v.1 b c _)
  | frame command bytes =>
    show countCommand v.2 command >>= _ = Except.map (lift b) (countCommand v.2 command >>= _)
    rw [map_bind]
    rfl

theorem walk_onto (turns : Nat) (buf : List UInt8) :
    walk c turns (s.onto b) flow buf =
      (walk c turns s flow buf).map fun w => { w with analyzer := w.analyzer.onto b } := by
  have htokens : run (takeToken c) (lift b (s, flow)) (walkLexer.scan turns buf).1 = _ :=
    run_map (fun v token _ => takeToken_onto b c v token) (s, flow)
  rw [walk_eq, walk_eq, map_bind]
  show run (takeToken c) (lift b (s, flow)) _ >>= _ = _
  rw [htokens, bind_map]
  rfl

theorem stash_onto (w : Walked) :
    stash c { w with analyzer := w.analyzer.onto b } = lift b (stash c w) := by
  unfold stash
  simp only [checkT0814_onto]
  split
  · rfl
  · rfl

end Onto

/-- What `on_data` does with the flow that it has taken out of the table. -/
def onOpenFlow (c : Delivery) (data : List UInt8) (v : EnipAnalyzer × EnipFlowState) :
    Checked (EnipAnalyzer × EnipFlowState) := do
  let flow := maybeExpireMalformedWindow v.2 c.ts
  let buf := flow.carry c.direction ++ data
  let w ← walk c buf.length v.1 (flow.setCarry c.direction []) buf
  run (processPdu c) (stash c w) w.queue

theorem onOpenFlow_onto (b : EnipAnalyzer) (c : Delivery) (data : List UInt8)
    (v : EnipAnalyzer × EnipFlowState) :
    onOpenFlow c data (lift b v) = (onOpenFlow c data v).map (lift b) := by
  unfold onOpenFlow
  rw [map_bind]
  refine Eq.trans (congrArg (· >>= _) (walk_onto v.1 b c _ _ _)) ?_
  rw [bind_map]
  refine bind_congr_ok fun w _ => ?_
  rw [stash_onto]
  exact run_map (fun v pdu _ => processPdu_onto b c v pdu) _

/-- The flow has been taken out of the table. -/
def withoutFlow (s : EnipAnalyzer) (c : Delivery) (data : List UInt8) : EnipAnalyzer :=
  { s with
    bytesReceived := min (s.bytesReceived + data.length) (2 ^ 64 - 1)
    flows := s.flows.erase c.flowKey }

def putBack (flowKey : FlowKey) (v : EnipAnalyzer × EnipFlowState) : EnipAnalyzer :=
  { v.1 with flows := v.1.flows.insert flowKey v.2 }

theorem onData_eq (s : EnipAnalyzer) (c : Delivery) (data : List UInt8) :
    onData s c data =
      (if (flowOf s c.flowKey).isNonEnip then
        .ok (withoutFlow s c data, flowOf s c.flowKey)
      else onOpenFlow c data (withoutFlow s c data, flowOf s c.flowKey)).map
        (putBack c.flowKey) := by
  unfold onData
  simp only
  split
  · rename_i hnon
    rw [if_pos (show (flowOf s c.flowKey).isNonEnip = true from hnon)]
    rfl
  · rename_i hopen
    rw [if_neg (show ¬ (flowOf s c.flowKey).isNonEnip = true from hopen), onOpenFlow, map_bind]
    rfl

theorem flows_onFlowClose (s : EnipAnalyzer) (flowKey : FlowKey) :
    (onFlowClose s flowKey).flows = s.flows.erase flowKey := by
  cases hget : s.flows.get? flowKey with
  | none => rw [onFlowClose_of_none hget, SortedMap.erase_of_none _ hget]
  | some flow => rw [onFlowClose, hget]

/-- Closing only moves what is in the table and in the sums. -/
theorem onFlowClose_onto (s u : EnipAnalyzer) (flowKey : FlowKey) :
    onFlowClose (u.onto s) flowKey = u.onto (onFlowClose s flowKey) := by
  have hflows : (u.onto s).flows = s.flows := rfl
  cases hget : s.flows.get? flowKey with
  | none => rw [onFlowClose_of_none hget, onFlowClose_of_none (hflows ▸ hget)]
  | some flow =>
    rw [onFlowClose, hflows, hget, onFlowClose, hget]
    rfl

section Commutes

variable {s : EnipAnalyzer} {c : Delivery} {data : List UInt8} {flowKey : FlowKey}

theorem flowOf_onFlowClose (s : EnipAnalyzer) (hkey : c.flowKey ≠ flowKey) :
    flowOf (onFlowClose s flowKey) c.flowKey = flowOf s c.flowKey := by
  rw [flowOf, flows_onFlowClose, SortedMap.get?_erase_of_ne _ hkey, ← flowOf]

/-- The table and the sums that a call finds when the other flow has been closed. -/
def closedBase (s : EnipAnalyzer) (c : Delivery) (flowKey : FlowKey) : EnipAnalyzer :=
  { onFlowClose s flowKey with flows := (onFlowClose s flowKey).flows.erase c.flowKey }

theorem withoutFlow_onFlowClose (s : EnipAnalyzer) (c : Delivery) (data : List UInt8)
    (flowKey : FlowKey) : withoutFlow (onFlowClose s flowKey) c data =
      (withoutFlow s c data).onto (closedBase s c flowKey) := by
  unfold withoutFlow closedBase
  cases hget : s.flows.get? flowKey with
  | none =>
    rw [onFlowClose_of_none hget]
    rfl
  | some flow =>
    rw [onFlowClose, hget]
    rfl

/-- Putting a flow back and closing another one commute. -/
theorem putBack_onFlowClose (s : EnipAnalyzer) (data : List UInt8) (hkey : c.flowKey ≠ flowKey)
    (u : EnipAnalyzer) (flow : EnipFlowState) :
    putBack c.flowKey (u.onto (closedBase s c flowKey), flow) =
      onFlowClose (putBack c.flowKey (u.onto (withoutFlow s c data), flow)) flowKey := by
  have hput : putBack c.flowKey (u.onto (withoutFlow s c data), flow) =
      u.onto { s with flows := s.flows.insert c.flowKey flow } := by
    unfold putBack withoutFlow EnipAnalyzer.onto
    simp only [SortedMap.insert_erase]
  have hother : (s.flows.insert c.flowKey flow).get? flowKey = s.flows.get? flowKey :=
    SortedMap.get?_insert_of_ne _ _ (Ne.symm hkey)
  rw [hput, onFlowClose_onto]
  unfold putBack closedBase EnipAnalyzer.onto
  simp only [SortedMap.insert_erase, flows_onFlowClose, SortedMap.erase_insert_of_ne _ _ hkey]
  cases hget : s.flows.get? flowKey with
  | none => rw [onFlowClose_of_none hget, onFlowClose_of_none (hother.trans hget)]
  | some closed =>
    rw [onFlowClose, hget, onFlowClose, hother, hget]

theorem onData_onFlowClose (s : EnipAnalyzer) (c : Delivery) (data : List UInt8)
    (hkey : c.flowKey ≠ flowKey) :
    onData (onFlowClose s flowKey) c data = (onData s c data).map (onFlowClose · flowKey) := by
  have hwork : ∀ b, (if (flowOf s c.flowKey).isNonEnip then
        (.ok ((withoutFlow s c data).onto b, flowOf s c.flowKey) : Checked _)
      else onOpenFlow c data ((withoutFlow s c data).onto b, flowOf s c.flowKey)) =
      (if (flowOf s c.flowKey).isNonEnip then .ok (withoutFlow s c data, flowOf s c.flowKey)
      else onOpenFlow c data (withoutFlow s c data, flowOf s c.flowKey)).map (lift b) := by
    intro b
    split
    · rfl
    · exact onOpenFlow_onto b c data (withoutFlow s c data, flowOf s c.flowKey)
  have hself := hwork (withoutFlow s c data)
  rw [onData_eq, onData_eq, flowOf_onFlowClose s hkey, withoutFlow_onFlowClose, hwork]
  have hbase : (withoutFlow s c data).onto (withoutFlow s c data) = withoutFlow s c data := rfl
  rw [hbase] at hself
  generalize (if (flowOf s c.flowKey).isNonEnip then _ else _ : Checked _) = worked at hself ⊢
  cases worked with
  | error e => rfl
  | ok v =>
    have hv : v = lift (withoutFlow s c data) v := Except.ok.inj hself
    have hput := putBack_onFlowClose s data hkey v.1 v.2
    rw [show (v.1.onto (withoutFlow s c data), v.2) = v from hv.symm] at hput
    exact congrArg Except.ok hput

end Commutes

def closing : Closing Panic EnipAnalyzer Call FlowKey where
  key := fun call => call.delivery.flowKey
  take := onCall
  close := onFlowClose
  take_close := fun s call _ hkey => onData_onFlowClose s call.delivery call.data hkey

theorem closing_unnoticed : closing.Unnoticed (fun s key => (s.flows.get? key).isSome)
    (fun _ => True) summarize := by
  refine Closing.unnoticed_of (fun s key hkey => ?_) (fun s key => ?_)
    (fun s key _ => summarize_onFlowClose s key) (fun _ _ _ => trivial)
  · exact onFlowClose_of_none (by simpa using hkey)
  · simp [closing, flows_onFlowClose]

end Wirerust.Enip
