import Wirerust.Analyzer.Dnp3Windows
import Wirerust.Analyzer.EnipWindows

/-!
The detectors of bursts in DNP3 and EtherNet/IP.

Below the cap they watch any run whose timestamps do not decrease: an alarm has more events behind
it than the threshold, that many events at one time do not go by without an alarm, and between two
alarms the window starts anew.
-/

namespace Wirerust

open Lib Wirerust.Flow Wirerust.Analyzer

/-- The control commands of a DNP3 flow, and the writes and the errors of an EtherNet/IP flow. The
counter of the commands has 32 bits, like the threshold. -/
theorem bursts_watched (ord : Dnp3.PendingOrder) (flowKey : FlowKey) (threshold : UInt32)
    (hlo : 1 ≤ threshold.toNat) (hhi : threshold.toNat < 2 ^ 32 - 1) (calls : List Dnp3.Call)
    (horder : calls.Pairwise fun call call' => call.ts ≤ call'.ts)
    (enipKey : FlowKey) (writeBurst errorBurst : UInt32) (enipCalls : List Enip.Call)
    (henip : enipCalls.Pairwise fun call call' => call.delivery.flowKey = enipKey →
      call'.delivery.flowKey = enipKey → call.delivery.ts ≤ call'.delivery.ts) :
    ReturnsIf (Dnp3.totalBytes calls < 2 ^ 64)
      (run (Dnp3.onCall ord flowKey) (.new threshold) calls)
      (fun s => hasRoom s.findings = true →
        (Dnp3.controlWatch threshold).Watches
          (Dnp3.runTurns ord flowKey (.new threshold) calls)) ∧
    ReturnsIf (Enip.totalBytes enipCalls < 2 ^ 64)
      (run Enip.onCall (.new writeBurst errorBurst) enipCalls)
      (fun s => hasRoom s.findings = true →
        (Enip.writeDetector writeBurst).watch.Watches
          (Enip.runItems enipKey (.new writeBurst errorBurst) enipCalls) ∧
        (Enip.errorDetector errorBurst).watch.Watches
          (Enip.runItems enipKey (.new writeBurst errorBurst) enipCalls)) := by
  constructor
  · exact Dnp3.run_controls ord flowKey threshold hlo hhi calls horder
  · exact Enip.run_bursts enipKey writeBurst errorBurst enipCalls henip

/-- Two requests that set an attribute, in one frame. -/
def twoWrites : List UInt8 :=
  [0x6f, 0, 20, 0] ++ List.replicate 26 0 ++
    [2, 0, 0xb2, 0, 2, 0, 0x10, 0, 0xb2, 0, 2, 0, 0x10, 0]

/-- A response with status 5. -/
def badResponse : List UInt8 :=
  [0x6f, 0, 16, 0] ++ List.replicate 26 0 ++ [1, 0, 0xb2, 0, 4, 0, 0x8e, 0, 5, 0]

/-- Every detector fires once. -/
theorem bursts_watched_once :
    let calls : List Dnp3.Call :=
      [⟨Dnp3.operateFrame ++ Dnp3.operateFrame, 0, .clientToServer⟩]
    let enipCalls : List Enip.Call := [⟨⟨Enip.adapterKey, 7, .clientToServer⟩, twoWrites⟩,
      ⟨⟨Enip.adapterKey, 7, .serverToClient⟩, badResponse⟩]
    let turns := Dnp3.runTurns Dnp3.keyOrder Dnp3.outstationKey (.new 1) calls
    let items := Enip.runItems Enip.adapterKey (.new 1 0) enipCalls
    (turns.countP (Dnp3.controlWatch 1).fires = 1 ∧ (Dnp3.controlWatch 1).Watches turns) ∧
    (items.countP (Enip.writeDetector 1).watch.fires = 1 ∧
      (Enip.writeDetector 1).watch.Watches items) ∧
    items.countP (Enip.errorDetector 0).watch.fires = 1 ∧
      (Enip.errorDetector 0).watch.Watches items := by
  intro calls enipCalls turns items
  obtain ⟨hturns, hitems⟩ := bursts_watched Dnp3.keyOrder Dnp3.outstationKey 1 (by decide)
    (by decide) calls (List.pairwise_singleton _ _) Enip.adapterKey 1 0 enipCalls (by decide)
  have hdnp3 := hturns.2 _ rfl (by decide)
  have henip := hitems.2 _ rfl (by decide)
  exact ⟨⟨by decide, hdnp3⟩, ⟨by decide, henip.1⟩, by decide, henip.2⟩

end Wirerust
