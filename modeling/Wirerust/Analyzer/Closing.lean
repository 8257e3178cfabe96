import Wirerust.Analyzer.Dnp3Closing
import Wirerust.Analyzer.EnipClosing
import Wirerust.Analyzer.Iec104Closing

/-!
Closing flows of the analyzers that sum up the closed ones.

Closing a flow does not change the summary of DNP3, EtherNet/IP or IEC-104, whatever the state is.
So the summary after a run does not tell which flows have been closed, nor when, if no data of a
flow comes after its close. A close in the middle of a flow is not left out as easily, since the
carry of the flow goes with it (`close_mid_frame`).
-/

namespace Wirerust

open Lib Wirerust.Flow Wirerust.Analyzer

theorem closes_unnoticed (ord : Dnp3.PendingOrder) :
    ((∀ s, Dnp3.Unsaturated s → ∃ report, Dnp3.summarize s = .ok report) ∧
      (Dnp3.closing ord).Unnoticed (fun s key => (s.flows.get? key).isSome) Dnp3.Unsaturated
        Dnp3.summarize) ∧
    Enip.closing.Unnoticed (fun s key => (s.flows.get? key).isSome) (fun _ => True)
      Enip.summarize ∧
    (∀ s, Iec104.Unsaturated s → ∃ report, Iec104.summarize s = .ok report) ∧
      Iec104.closing.Unnoticed (fun s key => (s.flows.get? key).isSome) Iec104.Unsaturated
        Iec104.summarize := by
  refine ⟨⟨fun s => Dnp3.summarize_returns, Dnp3.closing_unnoticed ord⟩, Enip.closing_unnoticed,
    fun s => Iec104.summarize_returns, Iec104.closing_unnoticed⟩

/-- TESTFR-act. -/
def testFrame : List UInt8 := [0x68, 4, 0x43, 0, 0, 0]

def otherStationKey : FlowKey := .new (.v4 3) 1024 (.v4 2) 2404

/-- Two flows with a frame each, one of them closed at once, or both of them at the end. -/
theorem closes_unnoticed_two_flows :
    let frame : Iec104.Delivery × List UInt8 :=
      (⟨Iec104.stationKey, 0, .clientToServer⟩, testFrame)
    let frame' : Iec104.Delivery × List UInt8 :=
      (⟨otherStationKey, 0, .clientToServer⟩, testFrame)
    let ops := [.data frame, .close Iec104.stationKey, .data frame']
    let ops' := [.data frame, .data frame', .close otherStationKey, .close Iec104.stationKey]
    let packets := fun s => (Iec104.summarize s).map Terminal.AnalysisSummary.packetsAnalyzed
    (run Iec104.closing.step .new ops).map Iec104.summarize =
      (run Iec104.closing.step .new ops').map Iec104.summarize ∧
    run Iec104.closing.step .new ops >>= packets = .ok 2 := by
  intro frame frame' ops ops' packets
  have hkey : otherStationKey ≠ Iec104.stationKey := by decide
  have hfinal : Iec104.closing.Final ops := by
    refine ⟨fun i hi => ?_, trivial⟩
    rw [List.mem_singleton.mp hi]
    exact hkey
  have hfinal' : Iec104.closing.Final ops' := ⟨nofun, nofun, trivial⟩
  have hopen : (run Iec104.closing.take .new [frame, frame']).map
      (fun t => total Iec104.Iec104FlowState.frameCount t.flows) = .ok 2 := by decide
  refine ⟨?_, by decide⟩
  refine (closes_unnoticed Dnp3.keyOrder).2.2.2.runs .new ops ops' hfinal hfinal' rfl fun t ht => ?_
  rw [show inputs ops = [frame, frame'] from rfl] at ht
  rw [ht] at hopen
  have htotal : total Iec104.Iec104FlowState.frameCount t.flows = 2 := Except.ok.inj hopen
  rw [Iec104.Unsaturated, htotal]
  decide

/-- A close between the two halves of a frame loses the frame. -/
theorem close_mid_frame :
    let c : Iec104.Delivery := ⟨Iec104.stationKey, 0, .clientToServer⟩
    let halves := [(c, testFrame.take 3), (c, testFrame.drop 3)]
    let ops := [.data (c, testFrame.take 3), .close Iec104.stationKey, .data (c, testFrame.drop 3)]
    let packets := fun s => (Iec104.summarize s).map Terminal.AnalysisSummary.packetsAnalyzed
    inputs ops = halves ∧
      run Iec104.closing.step .new ops >>= packets = .ok 0 ∧
      run Iec104.closing.take .new halves >>= packets = .ok 1 ∧
      (run Iec104.closing.step .new ops).map Iec104.summarize ≠
        (run Iec104.closing.take .new halves).map Iec104.summarize := by
  intro c halves ops packets
  have hcut : run Iec104.closing.step .new ops >>= packets = .ok 0 := by decide
  have hwhole : run Iec104.closing.take .new halves >>= packets = .ok 1 := by decide
  refine ⟨rfl, hcut, hwhole, fun hsame => ?_⟩
  have hview : ∀ x : Checked Iec104.Iec104Analyzer, x >>= packets =
      x.map Iec104.summarize >>= fun r => r.map Terminal.AnalysisSummary.packetsAnalyzed :=
    fun x => (bind_map x Iec104.summarize _).symm
  rw [hview, hsame, ← hview, hwhole] at hcut
  cases hcut

end Wirerust
