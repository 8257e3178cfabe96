import Wirerust.Analyzer.Dnp3Stream
import Wirerust.Analyzer.Summaries

/-!
Closing DNP3 flows (`on_flow_close` and `summarize` of `analyzer/dnp3.rs`).

The summary lists the control commands of every flow that has been closed or is open, sorted by the
key. A key that comes back is listed more than once; the sort is stable, and closing puts the open
flow behind the closed ones of its key, where it already was (`sortByKey_closed`). `on_data` does
the same on top of any table and any sums (`onto`), so it does not see which other flows have been
closed (`onData_onFlowClose`).
-/

namespace Wirerust.Dnp3

open Lib Wirerust.Flow Wirerust.Analyzer Wirerust.Terminal

/-! ## The summary -/

/-- The control commands of the closed flows, and then those of the open ones. -/
def allFlowEntries (s : Dnp3Analyzer) : List (FlowKey × Nat) :=
  s.closedFlowDirectOperates ++ s.flows.entries.map fun e => (e.1, e.2.directOperateCount)

def controlOperationCounts (s : Dnp3Analyzer) : SortedMap String Value :=
  collect ((sortByKey (allFlowEntries s)).zipIdx.map fun e => (toString e.2, .number e.1.2))

def functionCodeDistribution (s : Dnp3Analyzer) : SortedMap String Value :=
  collect ((s.fnCodeCounts.entries.filter fun e => e.2 > 0).map
    fun e => (toString e.1, .number e.2))

def summarize (s : Dnp3Analyzer) : Checked (AnalysisSummary Value) := do
  let flowsAnalyzed := saturatingAdd s.closedFlowsCount s.flows.size
  let totalFrames ← combined Dnp3FlowState.frameCount s.totalFramesClosed s.flows
  let parseErrors ← combined Dnp3FlowState.parseErrors s.parseErrorsClosed s.flows
  .ok {
    analyzerName := "DNP3"
    packetsAnalyzed := totalFrames
    detail := collect [
      ("function_code_distribution", .object (functionCodeDistribution s).entries),
      ("control_operation_counts", .object (controlOperationCounts s).entries),
      ("total_frames", .number totalFrames),
      ("parse_errors", .number parseErrors),
      ("flows_analyzed", .number flowsAnalyzed),
      ("dropped_findings", .number s.findings.dropped),
      ("master_addrs_dropped", .number s.masterAddrsDropped),
      ("pending_requests_evicted", .number s.pendingRequestsEvicted)] }

/-- The frames and the errors of the open flows can be added up. -/
structure Unsaturated (s : Dnp3Analyzer) : Prop where
  frames : total Dnp3FlowState.frameCount s.flows < 2 ^ 64
  errors : total Dnp3FlowState.parseErrors s.flows < 2 ^ 64

theorem onFlowClose_of_none {s : Dnp3Analyzer} {flowKey : FlowKey}
    (h : s.flows.get? flowKey = none) : onFlowClose s flowKey = s := by
  rw [onFlowClose, h]

theorem onFlowClose_of_some {s : Dnp3Analyzer} {flowKey : FlowKey} {flow : Dnp3FlowState}
    (h : s.flows.get? flowKey = some flow) : onFlowClose s flowKey = { s with
      flows := s.flows.erase flowKey
      totalFramesClosed := saturatingAdd s.totalFramesClosed flow.frameCount
      parseErrorsClosed := saturatingAdd s.parseErrorsClosed flow.parseErrors
      closedFlowDirectOperates := s.closedFlowDirectOperates ++ [(flowKey, flow.directOperateCount)]
      closedFlowsCount := bump64 s.closedFlowsCount } := by
  rw [onFlowClose, h]
  rfl

/-- The commands of one key, in the order in which they are listed. -/
theorem entriesOf_allFlowEntries (s : Dnp3Analyzer) (key : FlowKey) :
    entriesOf key (allFlowEntries s) = entriesOf key s.closedFlowDirectOperates ++
      (s.flows.get? key).toList.map fun flow => (key, flow.directOperateCount) := by
  rw [allFlowEntries, entriesOf_append, entriesOf_map, entriesOf_entries, List.map_map]
  rfl

theorem sortByKey_closed (s : Dnp3Analyzer) (flowKey : FlowKey) :
    sortByKey (allFlowEntries (onFlowClose s flowKey)) = sortByKey (allFlowEntries s) := by
  cases hget : s.flows.get? flowKey with
  | none => rw [onFlowClose_of_none hget]
  | some flow =>
    refine sortByKey_congr fun key => ?_
    rw [entriesOf_allFlowEntries, entriesOf_allFlowEntries, onFlowClose_of_some hget]
    simp only [entriesOf_append]
    by_cases hkey : key = flowKey
    · subst hkey
      rw [hget, SortedMap.get?_erase_self, entriesOf_cons_self (key, flow.directOperateCount)]
      rw [Option.toList_none, List.map_nil, List.append_nil]
      rfl
    · rw [SortedMap.get?_erase_of_ne _ hkey, entriesOf_cons_of_ne (Ne.symm hkey)]
      exact congrArg (· ++ _) (List.append_nil _)

theorem summarize_returns {s : Dnp3Analyzer} (h : Unsaturated s) :
    ∃ report, summarize s = .ok report := by
  unfold summarize
  rw [combined_eq_ok h.frames, ok_bind, combined_eq_ok h.errors, ok_bind]
  exact ⟨_, rfl⟩

theorem summarize_onFlowClose (s : Dnp3Analyzer) (flowKey : FlowKey) (h : Unsaturated s) :
    summarize (onFlowClose s flowKey) = summarize s := by
  cases hget : s.flows.get? flowKey with
  | none => rw [onFlowClose_of_none hget]
  | some flow =>
    have hframes := combined_erase hget h.frames s.totalFramesClosed
    have herrors := combined_erase hget h.errors s.parseErrorsClosed
    have hflows := size_erase hget s.closedFlowsCount
    have hsort := sortByKey_closed s flowKey
    unfold summarize controlOperationCounts functionCodeDistribution
    rw [hsort, onFlowClose_of_some hget]
    simp only [hframes, herrors, hflows]

theorem unsaturated_onFlowClose (s : Dnp3Analyzer) (flowKey : FlowKey) (h : Unsaturated s) :
    Unsaturated (onFlowClose s flowKey) := by
  cases hget : s.flows.get? flowKey with
  | none =>
    rw [onFlowClose_of_none hget]
    exact h
  | some flow =>
    have hframes := total_erase Dnp3FlowState.frameCount hget
    have herrors := total_erase Dnp3FlowState.parseErrors hget
    have hlt := h.frames
    have hlt' := h.errors
    rw [onFlowClose_of_some hget]
    exact ⟨by simp only; omega, by simp only; omega⟩

/-! ## On top of another table -/

/-- The analyzer on top of the table and the sums of `b`. -/
def Dnp3Analyzer.onto (s b : Dnp3Analyzer) : Dnp3Analyzer :=
  { s with
    flows := b.flows
    closedFlowsCount := b.closedFlowsCount
    totalFramesClosed := b.totalFramesClosed
    parseErrorsClosed := b.parseErrorsClosed
    closedFlowDirectOperates := b.closedFlowDirectOperates }

def lift (b : Dnp3Analyzer) (v : Dnp3Analyzer × Dnp3FlowState) : Dnp3Analyzer × Dnp3FlowState :=
  (v.1.onto b, v.2)

section Onto

variable (ord : PendingOrder) (b : Dnp3Analyzer) (c : Delivery) (r : Request) (s : Dnp3Analyzer)
  (flow : Dnp3FlowState)

theorem detectControlClassBurstSplit_onto : detectControlClassBurstSplit c r (s.onto b) flow =
    lift b (detectControlClassBurstSplit c r s flow) := by
  unfold detectControlClassBurstSplit
  split
  · rfl
  · simp only
    generalize (if bump32 flow.directOperateCount = 1 then _ else _ : Dnp3FlowState) = flow
    by_cases hdue : (flow.directOperateCount > s.directOperateThreshold.toNat &&
        !flow.directOperateEmitted &&
        saturatingSub c.ts flow.windowStartTs ≤ detectionWindowSecs) = true
    · rw [if_pos hdue]
      exact if_pos hdue
    · rw [if_neg hdue]
      exact if_neg hdue

theorem detectUnexpectedSourceSplit_onto : detectUnexpectedSourceSplit c r (s.onto b) flow =
    lift b (detectUnexpectedSourceSplit c r s flow) := by
  unfold detectUnexpectedSourceSplit
  split
  · rfl
  · rfl

theorem detectUnsolicitedAnomaly_onto (appCtrl : UInt8) :
    detectUnsolicitedAnomaly c r appCtrl (s.onto b) flow =
      lift b (detectUnsolicitedAnomaly c r appCtrl s flow) := by
  unfold detectUnsolicitedAnomaly
  split
  · rfl
  · split
    · rfl
    · rfl

theorem detectUnsolicitedControl_onto : detectUnsolicitedControl c r (s.onto b) flow =
    lift b (detectUnsolicitedControl c r s flow) := by
  unfold detectUnsolicitedControl
  split
  · rfl
  · split
    · rfl
    · rfl

theorem trackMaster_onto (h : Dnp3DlHeader) :
    trackMaster h (s.onto b) flow = lift b (trackMaster h s flow) := by
  unfold trackMaster
  split
  · split
    · rfl
    · rfl
  · rfl

theorem registerRequest_onto (appCtrl : UInt8) :
    registerRequest ord c r appCtrl (s.onto b) flow =
      lift b (registerRequest ord c r appCtrl s flow) := by
  have hevict : ∀ evicted, countEviction (s.onto b) evicted = (countEviction s evicted).onto b := by
    intro evicted
    cases evicted with
    | true => rfl
    | false => rfl
  unfold registerRequest
  split
  · exact Prod.ext (hevict _) rfl
  · rfl

theorem processControl_onto (appCtrl : UInt8) (unexpected : Bool) :
    processControl ord c r appCtrl unexpected (s.onto b) flow =
      lift b (processControl ord c r appCtrl unexpected s flow) := by
  have hbroadcast : (if isBroadcastDestination r.dest then detectBroadcastAnomaly c r (s.onto b)
      else s.onto b) =
      (if isBroadcastDestination r.dest then detectBroadcastAnomaly c r s else s).onto b := by
    split
    · rfl
    · rfl
  unfold processControl
  simp only
  rw [hbroadcast]
  generalize (if isBroadcastDestination r.dest then detectBroadcastAnomaly c r s else s) = s
  have hunexpected : (if unexpected then detectUnexpectedSourceSplit c r (s.onto b) flow
      else (s.onto b, flow)) =
      lift b (if unexpected then detectUnexpectedSourceSplit c r s flow else (s, flow)) := by
    split
    · exact detectUnexpectedSourceSplit_onto b c r s flow
    · rfl
  rw [hunexpected]
  generalize (if unexpected then detectUnexpectedSourceSplit c r s flow else (s, flow)) = v
  simp only [lift, registerRequest_onto]
  exact detectControlClassBurstSplit_onto b c r _ _

theorem maybeEmitT0827_onto (dest : UInt16) :
    maybeEmitT0827 c dest (s.onto b) flow = (maybeEmitT0827 c dest s flow).map (lift b) := by
  unfold maybeEmitT0827
  rw [map_bind]
  refine bind_congr_ok fun combined _ => ?_
  split
  · rfl
  · rfl

theorem processClass_onto (appCtrl : UInt8) (unexpected : Bool) :
    processClass ord c r appCtrl unexpected (s.onto b) flow =
      (processClass ord c r appCtrl unexpected s flow).map (lift b) := by
  unfold processClass
  split
  · exact congrArg Except.ok (processControl_onto ord b c r s flow appCtrl unexpected)
  · exact maybeEmitT0827_onto b c (detectRestartSplit c r s flow).1
      (detectRestartSplit c r s flow).2 r.dest
  · rfl
  · simp only [detectUnsolicitedAnomaly_onto]
    split
    · rfl
    · rfl
  · rfl

theorem processApplication_onto (appCtrl : UInt8) (unexpected : Bool) :
    processApplication ord c r appCtrl unexpected (s.onto b) flow =
      (processApplication ord c r appCtrl unexpected s flow).map (lift b) := by
  unfold processApplication
  rw [map_bind]
  refine bind_congr_ok fun fcCounts _ => ?_
  rw [map_bind]
  refine bind_congr_ok fun fnCodeCounts _ => ?_
  simp only
  split
  · have hcontrol : detectUnsolicitedControl c r { s.onto b with fnCodeCounts := fnCodeCounts.1 }
        { flow with fcCounts := fcCounts.1 } =
          lift b (detectUnsolicitedControl c r { s with fnCodeCounts := fnCodeCounts.1 }
            { flow with fcCounts := fcCounts.1 }) :=
      detectUnsolicitedControl_onto b c r { s with fnCodeCounts := fnCodeCounts.1 } _
    rw [hcontrol]
    exact processClass_onto ord b c r _ _ appCtrl unexpected
  · exact processClass_onto ord b c r { s with fnCodeCounts := fnCodeCounts.1 } _ appCtrl unexpected

theorem processFrame_onto (h : Dnp3DlHeader) (frame : List UInt8) :
    processFrame ord c h frame (s.onto b) flow =
      (processFrame ord c h frame s flow).map (lift b) := by
  unfold processFrame
  simp only [trackMaster_onto]
  split
  · exact processApplication_onto ord b c _ _ _ _ _
  · rfl

theorem checkMalformedAnomaly_onto :
    checkMalformedAnomaly c (s.onto b) flow = lift b (checkMalformedAnomaly c s flow) := by
  unfold checkMalformedAnomaly
  simp only
  split
  · rfl
  · rfl

theorem settleShort_onto (didProcess : Bool) :
    settleShort c didProcess (s.onto b) flow = lift b (settleShort c didProcess s flow) := by
  unfold settleShort
  simp only [checkMalformedAnomaly_onto]
  split
  · split
    · rfl
    · split
      · rfl
      · rfl
  · rfl

theorem turn_onto (didProcess : Bool) :
    turn ord c didProcess (s.onto b) flow =
      (turn ord c didProcess s flow).map fun v => (v.1, lift b v.2) := by
  unfold turn
  simp only [checkMalformedAnomaly_onto, settleShort_onto, processFrame_onto]
  split
  · rfl
  · split
    · rfl
    · split
      · rfl
      · split
        · rfl
        · split
          · rfl
          · rw [map_bind, bind_map]
            rfl

theorem walk_onto (turns : Nat) (didProcess : Bool) :
    walk ord c turns didProcess (s.onto b) flow =
      (walk ord c turns didProcess s flow).map (lift b) := by
  induction turns generalizing didProcess s flow with
  | zero => rfl
  | succ turns ih =>
    rw [walk, walk, turn_onto, bind_map, map_bind]
    refine bind_congr_ok fun v _ => ?_
    obtain ⟨again, s', flow'⟩ := v
    cases again with
    | true => exact ih s' flow' true
    | false => rfl

theorem accumulate_onto (data : List UInt8) :
    accumulate c data (s.onto b) flow = (accumulate c data s flow).map (lift b) := by
  unfold accumulate
  rw [map_bind]
  refine bind_congr_ok fun remaining _ => ?_
  simp only [checkMalformedAnomaly_onto]
  split
  · rfl
  · rfl

theorem scanBlockTimeouts_onto :
    scanBlockTimeouts c (s.onto b) flow = (scanBlockTimeouts c s flow).map (lift b) := by
  unfold scanBlockTimeouts
  simp only
  generalize List.foldl timeOutRequest (none, flow) _ = acc
  obtain ⟨minDest, flow⟩ := acc
  cases minDest with
  | none =>
    simp only
    split
    · rfl
    · rfl
  | some dest =>
    simp only
    split
    · exact maybeEmitT0827_onto b c (emit s _) _ dest
    · exact maybeEmitT0827_onto b c s flow dest

theorem onFlowData_onto (data : List UInt8) :
    onFlowData ord c data (s.onto b) flow = (onFlowData ord c data s flow).map (lift b) := by
  unfold onFlowData
  split
  · rfl
  · split
    · rfl
    · simp only
      rw [scanBlockTimeouts_onto, bind_map, map_bind]
      refine bind_congr_ok fun v _ => ?_
      simp only [lift, accumulate_onto]
      rw [bind_map, map_bind]
      exact bind_congr_ok fun v _ => walk_onto ord b c v.1 v.2 _ _

end Onto

/-! ## Closing beside a call -/

theorem flows_onFlowClose (s : Dnp3Analyzer) (flowKey : FlowKey) :
    (onFlowClose s flowKey).flows = s.flows.erase flowKey := by
  cases hget : s.flows.get? flowKey with
  | none => rw [onFlowClose_of_none hget, SortedMap.erase_of_none _ hget]
  | some flow => rw [onFlowClose_of_some hget]

theorem onFlowClose_eq_onto (s : Dnp3Analyzer) (flowKey : FlowKey) :
    onFlowClose s flowKey = s.onto (onFlowClose s flowKey) := by
  cases hget : s.flows.get? flowKey with
  | none =>
    rw [onFlowClose_of_none hget]
    rfl
  | some flow =>
    rw [onFlowClose_of_some hget]
    rfl

/-- Putting a flow into the table and closing another one commute. -/
theorem onFlowClose_insert (s u : Dnp3Analyzer) {key flowKey : FlowKey} (hkey : key ≠ flowKey)
    (flow : Dnp3FlowState) :
    onFlowClose { u.onto s with flows := s.flows.insert key flow } flowKey =
      { u.onto (onFlowClose s flowKey) with
        flows := (onFlowClose s flowKey).flows.insert key flow } := by
  have hother : (s.flows.insert key flow).get? flowKey = s.flows.get? flowKey :=
    SortedMap.get?_insert_of_ne _ _ (Ne.symm hkey)
  cases hget : s.flows.get? flowKey with
  | none =>
    rw [onFlowClose_of_none (hother.trans hget), onFlowClose_of_none hget]
  | some closed =>
    have herase := SortedMap.erase_insert_of_ne s.flows flow hkey
    rw [onFlowClose_of_some (hother.trans hget), onFlowClose_of_some hget]
    simp only [herase]
    rfl

theorem onData_onFlowClose (ord : PendingOrder) (s : Dnp3Analyzer) {key flowKey : FlowKey}
    (data : List UInt8) (ts : UInt32) (direction : Direction) (hkey : key ≠ flowKey) :
    onData ord (onFlowClose s flowKey) key data ts direction =
      (onData ord s key data ts direction).map (onFlowClose · flowKey) := by
  have hself := onFlowData_onto ord s ⟨key, direction, ts⟩ s ((s.flows.get? key).getD {}) data
  have hclosed := onFlowData_onto ord (onFlowClose s flowKey) ⟨key, direction, ts⟩ s
    ((s.flows.get? key).getD {}) data
  rw [← onFlowClose_eq_onto] at hclosed
  have hsame : s.onto s = s := rfl
  rw [hsame] at hself
  unfold onData
  simp only [flows_onFlowClose, SortedMap.get?_erase_of_ne _ hkey]
  rw [hclosed]
  cases hdata : onFlowData ord ⟨key, direction, ts⟩ data s ((s.flows.get? key).getD {}) with
  | error e => rfl
  | ok v =>
    rw [hdata] at hself
    have hv : v = lift s v := Except.ok.inj hself
    have hanalyzer : v.1.onto s = v.1 := congrArg Prod.fst hv.symm
    have hflows : (v.1.onto s).flows = v.1.flows := congrArg Dnp3Analyzer.flows hanalyzer
    have hinsert := onFlowClose_insert s v.1 hkey v.2
    rw [hanalyzer, show s.flows = v.1.flows from hflows] at hinsert
    exact congrArg Except.ok hinsert.symm

def closing (ord : PendingOrder) : Closing Panic Dnp3Analyzer (FlowKey × Call) FlowKey where
  key := Prod.fst
  take := fun s call => onCall ord call.1 s call.2
  close := onFlowClose
  take_close := fun s call _ hkey =>
    onData_onFlowClose ord s call.2.data call.2.ts call.2.direction hkey

theorem closing_unnoticed (ord : PendingOrder) : (closing ord).Unnoticed
    (fun s key => (s.flows.get? key).isSome) Unsaturated summarize := by
  refine Closing.unnoticed_of (fun s key hkey => ?_) (fun s key => ?_) summarize_onFlowClose
    unsaturated_onFlowClose
  · exact onFlowClose_of_none (by simpa using hkey)
  · simp [closing, flows_onFlowClose]

end Wirerust.Dnp3
