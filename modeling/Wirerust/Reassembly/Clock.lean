import Wirerust.Reassembly.Moves

/-!
The clock of the engine: the number of the packet and the time of the last sweep.

`process_packet` moves the one, and the sweep by timestamp the other. Every other step of the
engine keeps both (`Keeps`), whatever it does to the flows.
-/

namespace Wirerust.Clock

open Lib Wirerust.Segment Wirerust.Flow Wirerust.Engine Wirerust.Moves

def clock (s : TcpReassembler) : Nat × UInt32 := (s.packetIndex, s.lastExpirySweepSecs)

/-- The clock is `c` in the state of whatever comes back. -/
def Keeps {α : Type} (c : Nat × UInt32) (state : α → TcpReassembler) (x : Checked α) : Prop :=
  ∀ a, x = .ok a → clock (state a) = c

namespace Keeps

variable {α β : Type} {c : Nat × UInt32} {state : α → TcpReassembler} {state' : β → TcpReassembler}

theorem ok {a : α} (h : clock (state a) = c) : Keeps c state (.ok a) := by
  intro b hb
  cases hb
  exact h

theorem error (e : Panic) : Keeps c state (.error e) := by
  intro b hb
  cases hb

theorem bind {x : Checked α} {f : α → Checked β} (hx : Keeps c state x)
    (hf : ∀ a, clock (state a) = c → Keeps c state' (f a)) : Keeps c state' (x >>= f) := by
  intro b hb
  obtain ⟨a, ha, hb⟩ := bind_eq_ok.mp hb
  exact hf a (hx a ha) b hb

/-- What comes first has no state. -/
theorem skip {x : Checked α} {f : α → Checked β} (hf : ∀ a, Keeps c state' (f a)) :
    Keeps c state' (x >>= f) := by
  intro b hb
  obtain ⟨a, -, hb⟩ := bind_eq_ok.mp hb
  exact hf a b hb

theorem foldlM {ι : Type} {step : TcpReassembler → ι → Checked TcpReassembler}
    (hstep : ∀ s i, clock s = c → Keeps c id (step s i)) (l : List ι) {s : TcpReassembler}
    (h : clock s = c) : Keeps c id (l.foldlM step s) := by
  induction l generalizing s with
  | nil => exact ok h
  | cons i l ih =>
    rw [List.foldlM_cons]
    exact (hstep s i h).bind fun s' hs' => ih hs'

end Keeps

section Steps

variable {c : Nat × UInt32} {s : TcpReassembler} (h : clock s = c)

include h

/-! ## Flows that leave -/

theorem deliver_keeps (key : FlowKey) (dir : Direction) (chunks : List (Chunk UInt8))
    (timestamp : UInt32) : Keeps c id (deliver s key dir chunks timestamp) := by
  intro s' hs'
  rw [deliver_eq_ok hs']
  exact h

theorem closeFlow_keeps (key : FlowKey) (reason : CloseReason) :
    Keeps c id (closeFlow s key reason) := by
  unfold closeFlow
  split
  · exact .error _
  · refine .skip fun mem => .skip fun client => (deliver_keeps ?_ _ _ _ _).bind fun s₁ h₁ => ?_
    · exact h
    · refine .skip fun server => (deliver_keeps h₁ _ _ _ _).bind fun s₂ h₂ => ?_
      exact .skip fun total => .ok h₂

theorem expireWhere_keeps (ord : IterOrder) (idle : TcpFlow → Bool) :
    Keeps c id (expireWhere ord s idle) := by
  unfold expireWhere
  exact .foldlM (fun t key ht => closeFlow_keeps (by exact ht) key .timeout) _ h

theorem sweepByPacketIndex_keeps (ord : IterOrder) : Keeps c id (sweepByPacketIndex ord s) := by
  unfold sweepByPacketIndex
  split
  · exact expireWhere_keeps h ord _
  · exact .ok h

omit h in
theorem evictLoop_keeps (target : Nat) (keys : List FlowKey) {s : TcpReassembler}
    (h : clock s = c) : Keeps c id (evictLoop target s keys) := by
  induction keys generalizing s with
  | nil => exact .ok h
  | cons key keys ih =>
    unfold evictLoop
    split
    · exact .ok h
    · exact (closeFlow_keeps (by exact h) key .memoryPressure).bind fun s' hs' => ih hs'

theorem evictFlows_keeps (ord : IterOrder) (trigger : EvictionTrigger) :
    Keeps c id (evictFlows ord s trigger) := by
  unfold evictFlows
  exact .skip fun target => evictLoop_keeps target _ h

theorem enforceMemcap_keeps (ord : IterOrder) : Keeps c id (enforceMemcap ord s) := by
  unfold enforceMemcap
  split
  · exact evictFlows_keeps h ord _
  · exact .ok h

theorem makeRoom_keeps (ord : IterOrder) : Keeps c Prod.fst (makeRoom ord s) := by
  unfold makeRoom
  split
  · exact (evictFlows_keeps h ord _).bind fun s' hs' => .ok hs'
  · exact .ok h

/-! ## The flow of a packet -/

theorem touchFlow_keeps (key : FlowKey) (timestamp : UInt32) :
    Keeps c id (touchFlow s key timestamp) := by
  unfold touchFlow
  exact .skip fun flow => .ok h

theorem getOrCreateFlow_keeps (ord : IterOrder) (key : FlowKey) (timestamp : UInt32) :
    Keeps c Prod.fst (getOrCreateFlow ord s key timestamp) := by
  unfold getOrCreateFlow
  split
  · refine (makeRoom_keeps h ord).bind fun out hout => ?_
    obtain ⟨s₁, full⟩ := out
    cases full with
    | true => exact .ok hout
    | false => exact (touchFlow_keeps (by exact hout) key timestamp).bind fun s₂ h₂ => .ok h₂
  · exact (touchFlow_keeps h key timestamp).bind fun s₁ h₁ => .ok h₁

theorem applyHandshakeFlags_keeps (packet : ParsedPacket) (key : FlowKey) (tcp : TcpFields) :
    Keeps c Prod.fst (applyHandshakeFlags s packet key tcp) := by
  unfold applyHandshakeFlags
  refine .skip fun flow => ?_
  dsimp only
  split
  · exact (closeFlow_keeps (by exact h) key .rst).bind fun s₁ h₁ => .ok h₁
  · exact .ok h

theorem clock_pushFinding (finding : Finding) : clock (pushFinding s finding) = c := by
  unfold pushFinding
  split <;> exact h

theorem clock_pushFindingIf (crossed : Bool) (finding : Finding) :
    clock (pushFindingIf crossed s finding) = c := by
  unfold pushFindingIf
  split
  · exact clock_pushFinding h finding
  · exact h

theorem clock_reportInsert (key : FlowKey) (srcIp : IpAddr) (timestamp : UInt32)
    (bytesAdded : Nat) (result : InsertResult) :
    clock (reportInsert s key srcIp timestamp bytesAdded result) = c := by
  cases result with
  | conflictingOverlap => exact clock_pushFinding (by exact h) _
  | truncated => exact clock_pushFinding (by exact h) _
  | segmentLimitReached =>
    simp only [reportInsert]
    split <;> exact h
  | _ => exact h

theorem insertPayloadSegment_keeps (packet : ParsedPacket) (key : FlowKey) (tcp : TcpFields)
    (timestamp : UInt32) : Keeps c Prod.fst (insertPayloadSegment s packet key tcp timestamp) := by
  unfold insertPayloadSegment
  refine .skip fun flow => .skip fun out => .skip fun u => .skip fun total => .ok ?_
  exact clock_reportInsert (by exact h) _ _ _ _ _

theorem checkAnomalyThresholds_keeps (packet : ParsedPacket) (key : FlowKey) (dir : Direction)
    (timestamp : UInt32) : Keeps c id (checkAnomalyThresholds s packet key dir timestamp) := by
  unfold checkAnomalyThresholds
  refine .skip fun flow => .ok ?_
  exact clock_pushFindingIf (clock_pushFindingIf (clock_pushFindingIf (by exact h) _ _) _ _) _ _

theorem flushContiguousData_keeps (key : FlowKey) (dir : Direction) (timestamp : UInt32) :
    Keeps c id (flushContiguousData s key dir timestamp) := by
  unfold flushContiguousData
  refine .skip fun flow => .skip fun out => .skip fun freed => .skip fun total => ?_
  exact deliver_keeps (by exact h) _ _ _ _

theorem processPayload_keeps (packet : ParsedPacket) (key : FlowKey) (tcp : TcpFields)
    (timestamp : UInt32) : Keeps c id (processPayload s packet key tcp timestamp) := by
  unfold processPayload
  split
  · exact .ok h
  · refine (insertPayloadSegment_keeps h packet key tcp timestamp).bind fun out hout => ?_
    refine (checkAnomalyThresholds_keeps hout _ _ _ _).bind fun s₂ h₂ => ?_
    exact flushContiguousData_keeps h₂ _ _ _

theorem closeIfFinished_keeps (key : FlowKey) : Keeps c id (closeIfFinished s key) := by
  unfold closeIfFinished
  split
  · exact .ok h
  · split
    · exact closeFlow_keeps (by exact h) key .fin
    · exact .ok h

theorem processOnFlow_keeps (ord : IterOrder) (packet : ParsedPacket) (key : FlowKey)
    (tcp : TcpFields) (timestamp : UInt32) :
    Keeps c id (processOnFlow ord s packet key tcp timestamp) := by
  unfold processOnFlow
  refine (applyHandshakeFlags_keeps (by exact h) packet key tcp).bind fun out hout => ?_
  obtain ⟨s₁, post⟩ := out
  cases post with
  | flowClosed => exact .ok hout
  | proceed =>
    refine (processPayload_keeps hout packet key tcp timestamp).bind fun s₂ h₂ => ?_
    refine (closeIfFinished_keeps h₂ key).bind fun s₃ h₃ => ?_
    exact enforceMemcap_keeps h₃ ord

theorem clock_extractTcpContext (packet : ParsedPacket) :
    clock (extractTcpContext s packet).1 = c := by
  unfold extractTcpContext
  split
  · exact h
  · split <;> exact h

end Steps

/-! ## The calls -/

theorem sweepByTimestamp_clock {ord : IterOrder} {s s' : TcpReassembler} {timestamp : UInt32}
    (h : sweepByTimestamp ord s timestamp = .ok s') :
    clock s' = (s.packetIndex,
      if timestamp > s.lastExpirySweepSecs then timestamp else s.lastExpirySweepSecs) := by
  unfold sweepByTimestamp at h
  by_cases hlt : timestamp > s.lastExpirySweepSecs
  · rw [if_pos hlt] at h
    rw [if_pos hlt]
    exact expireWhere_keeps (by rfl) ord _ s' h
  · rw [if_neg hlt] at h
    rw [if_neg hlt]
    cases h
    rfl

theorem expireFlows_clock {ord : IterOrder} {s s' : TcpReassembler} {currentTime : UInt32}
    (h : expireFlows ord s currentTime = .ok s') : clock s' = clock s :=
  expireWhere_keeps rfl ord _ s' h

/-- Every packet is counted, and the time of the last sweep is that of the latest packet. -/
theorem processPacket_clock {ord : IterOrder} {s s' : TcpReassembler} {packet : ParsedPacket}
    {timestamp : UInt32} (h : processPacket ord s packet timestamp = .ok s') :
    clock s' = (s.packetIndex + 1,
      if timestamp > s.lastExpirySweepSecs then timestamp else s.lastExpirySweepSecs) := by
  simp only [processPacket, bind_eq_ok] at h
  obtain ⟨index, hindex, s₁, hs₁, s₂, hs₂, h⟩ := h
  have h₁ := sweepByTimestamp_clock hs₁
  rw [checkedInc_eq_ok hindex] at h₁
  have h₂ : clock s₂ = _ := sweepByPacketIndex_keeps h₁ ord s₂ hs₂
  have h₃ := clock_extractTcpContext h₂ packet
  revert h h₃
  obtain ⟨s₃, ctx⟩ := extractTcpContext s₂ packet
  intro h h₃
  cases ctx with
  | none =>
    cases h
    exact h₃
  | some kt =>
    obtain ⟨key, tcp⟩ := kt
    refine (Keeps.bind (getOrCreateFlow_keeps (by exact h₃) ord key timestamp)
      fun out hout => ?_ : Keeps _ id _) s' h
    obtain ⟨s₄, found⟩ := out
    cases found with
    | false => exact .ok hout
    | true => exact processOnFlow_keeps hout ord packet key tcp timestamp

end Wirerust.Clock
