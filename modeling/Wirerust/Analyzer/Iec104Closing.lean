import Wirerust.Analyzer.Iec104Stream
import Wirerust.Analyzer.Summaries

/-!
Closing IEC-104 flows (`on_flow_close` and `summarize` of `analyzer/iec104.rs`).

A closed flow is counted, and its frames go to the sum of the closed flows. The summary adds them up
with the flows that are still open, so it stays the same (`summarize_onFlowClose`). A call only
touches its own flow and the findings, so it does not see which other flows have been closed
(`onData_onFlowClose`).
-/

namespace Wirerust.Iec104

open Lib Wirerust.Flow Wirerust.Analyzer Wirerust.Terminal

def summarize (s : Iec104Analyzer) : Checked (AnalysisSummary Value) := do
  let flowsAnalyzed := saturatingAdd s.flowsAnalyzed s.flows.size
  let packetsAnalyzed ← combined Iec104FlowState.frameCount s.totalFramesClosed s.flows
  .ok {
    analyzerName := "IEC-104"
    packetsAnalyzed := packetsAnalyzed
    detail := collect [("dropped_findings", .number s.findings.dropped),
      ("flows_analyzed", .number flowsAnalyzed),
      ("total_findings", .number s.findings.kept.length)] }

/-- The frames of the open flows can be added up. -/
def Unsaturated (s : Iec104Analyzer) : Prop := total Iec104FlowState.frameCount s.flows < 2 ^ 64

theorem onFlowClose_of_none {s : Iec104Analyzer} {flowKey : FlowKey}
    (h : s.flows.get? flowKey = none) : onFlowClose s flowKey = s := by
  rw [onFlowClose, h]

theorem flows_onFlowClose (s : Iec104Analyzer) (flowKey : FlowKey) :
    (onFlowClose s flowKey).flows = s.flows.erase flowKey := by
  cases hget : s.flows.get? flowKey with
  | none => rw [onFlowClose_of_none hget, SortedMap.erase_of_none _ hget]
  | some flow => rw [onFlowClose, hget]

theorem summarize_returns {s : Iec104Analyzer} (h : Unsaturated s) :
    ∃ report, summarize s = .ok report :=
  ⟨_, bind_eq_ok.mpr ⟨_, combined_eq_ok h s.totalFramesClosed, rfl⟩⟩

theorem summarize_onFlowClose (s : Iec104Analyzer) (flowKey : FlowKey) (h : Unsaturated s) :
    summarize (onFlowClose s flowKey) = summarize s := by
  cases hget : s.flows.get? flowKey with
  | none => rw [onFlowClose_of_none hget]
  | some flow =>
    have hframes := combined_erase hget h s.totalFramesClosed
    have hflows := size_erase hget s.flowsAnalyzed
    unfold summarize onFlowClose
    rw [hget]
    simp only
    rw [hflows]
    exact congrArg (· >>= _) hframes

theorem unsaturated_onFlowClose (s : Iec104Analyzer) (flowKey : FlowKey) (h : Unsaturated s) :
    Unsaturated (onFlowClose s flowKey) := by
  cases hget : s.flows.get? flowKey with
  | none =>
    rw [onFlowClose_of_none hget]
    exact h
  | some flow =>
    have htotal := total_erase Iec104FlowState.frameCount hget
    unfold Unsaturated onFlowClose at *
    rw [hget]
    simp only
    omega

theorem onData_onFlowClose (s : Iec104Analyzer) (c : Delivery) (data : List UInt8)
    {flowKey : FlowKey} (hkey : c.flowKey ≠ flowKey) :
    onData (onFlowClose s flowKey) c data = (onData s c data).map (onFlowClose · flowKey) := by
  cases hget : s.flows.get? flowKey with
  | none =>
    rw [onFlowClose_of_none hget]
    unfold onData
    simp only
    generalize walk c _ _ _ _ = walked
    cases walked with
    | error e => rfl
    | ok w =>
      refine congrArg Except.ok (Eq.symm (onFlowClose_of_none ?_))
      exact (SortedMap.get?_insert_of_ne _ _ (Ne.symm hkey)).trans hget
  | some flow =>
    have hself : (s.flows.erase flowKey).get? c.flowKey = s.flows.get? c.flowKey :=
      SortedMap.get?_erase_of_ne _ hkey
    unfold onData onFlowClose
    rw [hget]
    simp only [hself]
    generalize walk c _ _ _ _ = walked
    cases walked with
    | error e => rfl
    | ok w =>
      have hother : (s.flows.insert c.flowKey w.flow).get? flowKey = some flow :=
        (SortedMap.get?_insert_of_ne _ _ (Ne.symm hkey)).trans hget
      simp only [ok_bind, Except.map, hother, SortedMap.erase_insert_of_ne _ _ hkey]

def closing : Closing Panic Iec104Analyzer (Delivery × List UInt8) FlowKey where
  key := fun call => call.1.flowKey
  take := fun s call => onData s call.1 call.2
  close := onFlowClose
  take_close := fun s call _ hkey => onData_onFlowClose s call.1 call.2 hkey

theorem closing_unnoticed : closing.Unnoticed (fun s key => (s.flows.get? key).isSome) Unsaturated
    summarize := by
  refine Closing.unnoticed_of (fun s key hkey => ?_) (fun s key => ?_) summarize_onFlowClose
    unsaturated_onFlowClose
  · exact onFlowClose_of_none (by simpa using hkey)
  · simp [closing, flows_onFlowClose]

end Wirerust.Iec104
