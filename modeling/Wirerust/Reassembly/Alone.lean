import Wirerust.Lib.Capped
import Wirerust.Reassembly.EngineSpec

/-!
What a packet does to its own flow, as a function of the flow and the packet alone.

`packetAlone` leaves out everything the flows of a table share: the memory count, the packet
index, the clock of the sweeps, the cap of the findings. `processOnFlow_eq_ok` shows that the
engine does just this to the flow of a packet, and `Dismissed` says all that the rest of a
call can do: close flows that are idle or in the way. Two facts about the engine rest on it:
that flows do not influence each other (`Isolation`), and when anomalies are raised
(`Anomalies`).
-/

namespace Wirerust.Alone

open Lib Wirerust.Segment Wirerust.Direction Wirerust.Flow Wirerust.Engine Wirerust.Moves
  Wirerust.Retiring Wirerust.EngineSpec

/-! ## One flow -/

/-- What the two directions of a flow still hand out when it is closed. -/
def drain (f : TcpFlow) : Checked (List (Chunk UInt8) × List (Chunk UInt8)) := do
  let (_, client) ← flushContiguous f.clientToServer
  let (_, server) ← flushContiguous f.serverToClient
  .ok (client, server)

def closeAlone (key : FlowKey) (f : TcpFlow) (reason : CloseReason) : Checked (List Event) := do
  let (client, server) ← drain f
  .ok (closeEvents key f reason client server)

/-- The three anomalies that have a threshold. -/
inductive Anomaly
  | overlaps
  | smallSegments
  | outOfWindow
  deriving DecidableEq, Repr

namespace Anomaly

def fired : Anomaly → FlowDirection → Bool
  | .overlaps, d => d.overlapAlertFired
  | .smallSegments, d => d.smallSegmentAlertFired
  | .outOfWindow, d => d.outOfWindowAlertFired

/-- Over its threshold for the first time. -/
def crossed (config : ReassemblyConfig) (key : FlowKey) (d : FlowDirection) : Anomaly → Bool
  | .overlaps => overlapCrossed config d
  | .smallSegments => smallSegmentsCrossed config key d
  | .outOfWindow => outOfWindowCrossed config d

def finding (config : ReassemblyConfig) (key : FlowKey) (d : FlowDirection) (srcIp : IpAddr)
    (timestamp : UInt32) (dir : Direction) : Anomaly → Finding
  | .overlaps => overlapFinding key d srcIp timestamp dir
  | .smallSegments => smallSegmentFinding key d srcIp timestamp dir
  | .outOfWindow => outOfWindowFinding key d config.maxReceiveWindow srcIp timestamp dir

/-- In the order in which they are checked. -/
def all : List Anomaly := [.overlaps, .smallSegments, .outOfWindow]

end Anomaly

/-- The finding of an insertion. -/
def insertionFindings (config : ReassemblyConfig) (key : FlowKey) (srcIp : IpAddr)
    (timestamp : UInt32) : InsertResult → List Finding
  | .conflictingOverlap => [{
      category := .anomaly
      verdict := .likely
      confidence := .high
      summary := "Conflicting TCP segment overlap on flow " ++ key.display
      evidence := ["Retransmitted segment contains different data"]
      mitreTechniques := ["T1036"]
      sourceIp := some srcIp
      timestamp := some timestamp
      direction := none }]
  | .truncated => [{
      category := .anomaly
      verdict := .inconclusive
      confidence := .low
      summary := "Stream depth exceeded on flow " ++ key.display
      evidence := ["Max depth " ++ toString config.maxDepth ++ " bytes reached"]
      mitreTechniques := []
      sourceIp := some srcIp
      timestamp := some timestamp
      direction := none }]
  | _ => []

/-- One payload: its direction, as the insertion has left it for the thresholds to be checked,
the result of the insertion, and the anomalies raised. -/
structure Check where
  dir : Direction
  flowDir : FlowDirection
  result : InsertResult
  raised : List Anomaly

structure Outcome where
  /-- The flow, if it is still in the table. -/
  flow : Option TcpFlow
  calls : List Event
  check : Option Check
  findings : List Finding

def payloadAlone (config : ReassemblyConfig) (key : FlowKey) (f : TcpFlow) (p : FlowPacket)
    (timestamp : UInt32) : Checked (TcpFlow × Outcome) :=
  if p.payload.isEmpty then
    .ok (f, ⟨some f, [], none, []⟩)
  else do
    let (f, dir, _) := joinFlow f p.src p.tcp.seq
    let (d, result) ← insertSegment (f.dir dir) p.tcp.seq p.payload config.limits
    let d := countSmallSegment config d p.payload result
    let raised := Anomaly.all.filter (Anomaly.crossed config key d)
    let (d', flushed) ← flushContiguous (latchAlerts config key d)
    let f := f.setDir dir d'
    .ok (f, {
      flow := some f
      calls := dataEvents key dir timestamp flushed
      check := some ⟨dir, d, result, raised⟩
      findings := insertionFindings config key p.src.1 timestamp result ++
        raised.map (Anomaly.finding config key d p.src.1 timestamp dir) })

/-- `f` is the flow with the time of the packet already on it. -/
def packetAlone (config : ReassemblyConfig) (key : FlowKey) (f : TcpFlow) (p : FlowPacket)
    (timestamp : UInt32) : Checked Outcome :=
  if p.tcp.rst then do
    let calls ← closeAlone key (resetFlow f p) .rst
    .ok ⟨none, calls, none, []⟩
  else do
    let (f, out) ← payloadAlone config key (handshake f p) p timestamp
    if f.state = .closed then do
      let calls ← closeAlone key f .fin
      .ok { out with flow := none, calls := out.calls ++ calls }
    else .ok out

/-- The table after a packet. -/
def place (flows : SortedMap FlowKey TcpFlow) (key : FlowKey) : Option TcpFlow →
    SortedMap FlowKey TcpFlow
  | some f => flows.insert key f
  | none => flows.erase key

theorem get?_place_self (flows : SortedMap FlowKey TcpFlow) (key : FlowKey)
    (flow : Option TcpFlow) : (place flows key flow).get? key = flow := by
  cases flow with
  | none => exact SortedMap.get?_erase_self _ _
  | some g => exact SortedMap.get?_insert_self _ _ _

theorem get?_place_of_ne (flows : SortedMap FlowKey TcpFlow) {key k : FlowKey}
    (flow : Option TcpFlow) (hk : k ≠ key) : (place flows key flow).get? k = flows.get? k := by
  cases flow with
  | none => exact SortedMap.get?_erase_of_ne _ hk
  | some g => exact SortedMap.get?_insert_of_ne _ _ hk

/-! ## Findings -/

/-- All that is kept of the findings. -/
def tally (s : TcpReassembler) : Capped Finding := ⟨s.findings, s.stats.droppedFindings⟩

def record (t : Capped Finding) (findings : List Finding) : Capped Finding :=
  t.pushAll maxFindings (2 ^ 64 - 1) findings

theorem tally_pushFinding (s : TcpReassembler) (finding : Finding) :
    tally (pushFinding s finding) = record (tally s) [finding] := by
  simp only [tally, pushFinding, record, Capped.pushAll, List.foldl_cons, List.foldl_nil,
    Capped.push]
  by_cases h : s.findings.length < maxFindings
  · rw [if_pos h, if_pos h]
  · rw [if_neg h, if_neg h]
    rfl

theorem tally_pushFindingIf (b : Bool) (s : TcpReassembler) (finding : Finding) :
    tally (pushFindingIf b s finding) = record (tally s) (if b then [finding] else []) := by
  cases b with
  | false => rfl
  | true => exact tally_pushFinding s finding

theorem record_append (t : Capped Finding) (fs gs : List Finding) :
    record t (fs ++ gs) = record (record t fs) gs := Capped.pushAll_append ..

theorem tally_reportInsert (s : TcpReassembler) (key : FlowKey) (srcIp : IpAddr)
    (timestamp : UInt32) (bytesAdded : Nat) (result : InsertResult) :
    tally (reportInsert s key srcIp timestamp bytesAdded result) =
      record (tally s) (insertionFindings s.config key srcIp timestamp result) := by
  cases result with
  | conflictingOverlap => exact tally_pushFinding _ _
  | truncated => exact tally_pushFinding _ _
  | segmentLimitReached =>
    simp only [reportInsert]
    split <;> rfl
  | _ => rfl

@[simp] theorem config_pushFindingIf (b : Bool) (s : TcpReassembler) (finding : Finding) :
    (pushFindingIf b s finding).config = s.config :=
  congrArg View.config (view_pushFindingIf b s finding)

/-- The findings of the thresholds, one check after the other. -/
theorem raisedFindings_eq (config : ReassemblyConfig) (key : FlowKey) (d : FlowDirection)
    (srcIp : IpAddr) (timestamp : UInt32) (dir : Direction) :
    (if overlapCrossed config d then [overlapFinding key d srcIp timestamp dir] else []) ++
      (if smallSegmentsCrossed config key d then
        [smallSegmentFinding key d srcIp timestamp dir] else []) ++
      (if outOfWindowCrossed config d then
        [outOfWindowFinding key d config.maxReceiveWindow srcIp timestamp dir] else []) =
    (Anomaly.all.filter (Anomaly.crossed config key d)).map
      (Anomaly.finding config key d srcIp timestamp dir) := by
  simp only [Anomaly.all, List.filter, Anomaly.crossed]
  cases overlapCrossed config d <;> cases smallSegmentsCrossed config key d <;>
    cases outOfWindowCrossed config d <;> rfl

/-! ## Closing and dismissing flows -/

/-- A flow closed because it is idle or because there is no room for it. -/
def isDismissal : Event → Bool
  | .onFlowClose _ .timeout => true
  | .onFlowClose _ .memoryPressure => true
  | _ => false

def isCreation : Event → Bool
  | .flowCreated _ => true
  | _ => false

def isArrival : Event → Bool
  | .packet _ _ _ _ _ => true
  | _ => false

/-- Nothing has happened but that flows were dismissed. -/
structure Dismissed (s s' : TcpReassembler) (new : List Event) : Prop where
  config : s'.config = s.config
  tally : tally s' = tally s
  events : s'.events = s.events ++ new
  noneCreated : ∀ e ∈ new, isCreation e = false
  shrinks : ∀ k f, s'.flows.get? k = some f → s.flows.get? k = some f
  told : (∀ e ∈ new, isDismissal e = false) → s'.flows = s.flows ∧ new = []
  noneArrived : ∀ e ∈ new, isArrival e = false

namespace Dismissed

theorem refl (s : TcpReassembler) : Dismissed s s [] :=
  ⟨rfl, rfl, by simp, by simp, fun _ _ h => h, fun _ => ⟨rfl, rfl⟩, by simp⟩

theorem trans {s s' s'' : TcpReassembler} {new new' : List Event} (h : Dismissed s s' new)
    (h' : Dismissed s' s'' new') : Dismissed s s'' (new ++ new') := by
  refine ⟨h'.config.trans h.config, h'.tally.trans h.tally, ?_, ?_,
    fun k f hf => h.shrinks k f (h'.shrinks k f hf), ?_,
    List.forall_mem_append.mpr ⟨h.noneArrived, h'.noneArrived⟩⟩
  · rw [h'.events, h.events, List.append_assoc]
  · exact List.forall_mem_append.mpr ⟨h.noneCreated, h'.noneCreated⟩
  · intro hnone
    obtain ⟨hnew, hnew'⟩ := List.forall_mem_append.mp hnone
    obtain ⟨hflows, rfl⟩ := h.told hnew
    obtain ⟨hflows', rfl⟩ := h'.told hnew'
    exact ⟨hflows'.trans hflows, rfl⟩

/-- Counters that no finding depends on may change before. -/
theorem of_eq {s t s' : TcpReassembler} {new : List Event} (h : Dismissed t s' new)
    (hc : t.config = s.config) (hf : t.flows = s.flows) (he : t.events = s.events)
    (ht : Alone.tally t = Alone.tally s) : Dismissed s s' new :=
  ⟨h.config.trans hc, h.tally.trans ht, he ▸ h.events, h.noneCreated, hf ▸ h.shrinks,
    hf ▸ h.told, h.noneArrived⟩

end Dismissed

/-- What `close_flow` does when it returns. -/
structure ClosedFlow (s s' : TcpReassembler) (key : FlowKey) (f : TcpFlow)
    (reason : CloseReason) (calls : List Event) : Prop where
  flow : s.flows.get? key = some f
  handed : closeAlone key f reason = .ok calls
  config : s'.config = s.config
  tally : tally s' = tally s
  flows : s'.flows = s.flows.erase key
  events : s'.events = s.events ++ calls

theorem closeFlow_eq_ok {s s' : TcpReassembler} {key : FlowKey} {reason : CloseReason}
    (h : closeFlow s key reason = .ok s') :
    ∃ f calls, ClosedFlow s s' key f reason calls := by
  unfold closeFlow at h
  cases hf : s.flows.get? key with
  | none =>
    rw [hf] at h
    cases h
  | some f =>
    rw [hf] at h
    simp only [bind_eq_ok] at h
    obtain ⟨mem, -, ⟨d, client⟩, hclient, s₁, hs₁, ⟨d', server⟩, hserver, s₂, hs₂, total, -,
      heq⟩ := h
    obtain rfl := deliver_eq_ok hs₁
    obtain rfl := deliver_eq_ok hs₂
    cases heq
    refine ⟨f, closeEvents key f reason client server, hf, ?_, rfl, rfl, rfl, ?_⟩
    · simp only [closeAlone, drain, hclient, hserver]
      rfl
    · simp [handOver, closeEvents, drainEvents]

theorem closeAlone_eq_ok {key : FlowKey} {f : TcpFlow} {reason : CloseReason}
    {calls : List Event} (h : closeAlone key f reason = .ok calls) :
    ∃ client server, calls = closeEvents key f reason client server := by
  simp only [closeAlone, bind_eq_ok] at h
  obtain ⟨⟨client, server⟩, -, heq⟩ := h
  cases heq
  exact ⟨client, server, rfl⟩

theorem ClosedFlow.dismissed {s s' : TcpReassembler} {key : FlowKey} {f : TcpFlow}
    {reason : CloseReason} {calls : List Event} (h : ClosedFlow s s' key f reason calls)
    (hr : isDismissal (.onFlowClose key reason) = true) : Dismissed s s' calls := by
  obtain ⟨client, server, rfl⟩ := closeAlone_eq_ok h.handed
  refine ⟨h.config, h.tally, h.events, ?_, fun k g hg => ?_, fun hnone => ?_, ?_⟩
  · refine List.forall_mem_append.mpr ⟨?_, by simp [isCreation]⟩
    exact forall_drainEvents (fun _ _ _ _ => rfl) f client server
  · rw [h.flows] at hg
    exact (get?_of_erase hg).2
  · have := hnone (.onFlowClose key reason) (by simp [closeEvents])
    rw [hr] at this
    cases this
  · refine List.forall_mem_append.mpr ⟨?_, by simp [isArrival]⟩
    exact forall_drainEvents (fun _ _ _ _ => rfl) f client server

/-- A loop that closes one flow after the other. -/
theorem foldlM_dismisses {stepFn : TcpReassembler → FlowKey → Checked TcpReassembler}
    (hstep : ∀ s key s', stepFn s key = .ok s' → ∃ new, Dismissed s s' new)
    (keys : List FlowKey) {s s' : TcpReassembler} (h : keys.foldlM stepFn s = .ok s') :
    ∃ new, Dismissed s s' new := by
  induction keys generalizing s with
  | nil =>
    cases h
    exact ⟨[], .refl _⟩
  | cons key keys ih =>
    rw [List.foldlM_cons, bind_eq_ok] at h
    obtain ⟨s₁, hs₁, hrest⟩ := h
    obtain ⟨new, hnew⟩ := hstep s key s₁ hs₁
    obtain ⟨new', hnew'⟩ := ih hrest
    exact ⟨new ++ new', hnew.trans hnew'⟩

theorem expireWhere_dismisses {ord : IterOrder} {s s' : TcpReassembler} {idle : TcpFlow → Bool}
    (h : expireWhere ord s idle = .ok s') : ∃ new, Dismissed s s' new := by
  unfold expireWhere at h
  have hloop := foldlM_dismisses (fun t key t' ht => ?_) _ h
  · obtain ⟨new, hnew⟩ := hloop
    exact ⟨new, hnew.of_eq rfl rfl rfl rfl⟩
  · obtain ⟨f, calls, hclosed⟩ := closeFlow_eq_ok ht
    exact ⟨calls, (hclosed.dismissed rfl).of_eq rfl rfl rfl rfl⟩

theorem evictLoop_dismisses {target : Nat} (keys : List FlowKey) {s s' : TcpReassembler}
    (h : evictLoop target s keys = .ok s') : ∃ new, Dismissed s s' new := by
  induction keys generalizing s with
  | nil =>
    cases h
    exact ⟨[], .refl _⟩
  | cons key keys ih =>
    rw [evictLoop] at h
    split at h
    · cases h
      exact ⟨[], .refl _⟩
    · rw [bind_eq_ok] at h
      obtain ⟨s₁, hs₁, hrest⟩ := h
      obtain ⟨f, calls, hclosed⟩ := closeFlow_eq_ok hs₁
      obtain ⟨new, hnew⟩ := ih hrest
      have hfirst : Dismissed s s₁ calls := (hclosed.dismissed rfl).of_eq rfl rfl rfl rfl
      exact ⟨calls ++ new, hfirst.trans hnew⟩

theorem evictFlows_dismisses {ord : IterOrder} {s s' : TcpReassembler} {trigger : EvictionTrigger}
    (h : evictFlows ord s trigger = .ok s') : ∃ new, Dismissed s s' new := by
  simp only [evictFlows, bind_eq_ok] at h
  obtain ⟨target, -, hloop⟩ := h
  obtain ⟨new, hnew⟩ := evictLoop_dismisses _ hloop
  exact ⟨new, hnew.of_eq rfl rfl rfl rfl⟩

theorem enforceMemcap_dismisses {ord : IterOrder} {s s' : TcpReassembler}
    (h : enforceMemcap ord s = .ok s') : ∃ new, Dismissed s s' new := by
  unfold enforceMemcap at h
  split at h
  · exact evictFlows_dismisses h
  · cases h
    exact ⟨[], .refl _⟩

theorem sweepByTimestamp_dismisses {ord : IterOrder} {s s' : TcpReassembler} {timestamp : UInt32}
    (h : sweepByTimestamp ord s timestamp = .ok s') : ∃ new, Dismissed s s' new := by
  unfold sweepByTimestamp at h
  split at h
  · obtain ⟨new, hnew⟩ := expireWhere_dismisses h
    exact ⟨new, hnew.of_eq rfl rfl rfl rfl⟩
  · cases h
    exact ⟨[], .refl _⟩

theorem sweepByPacketIndex_dismisses {ord : IterOrder} {s s' : TcpReassembler}
    (h : sweepByPacketIndex ord s = .ok s') : ∃ new, Dismissed s s' new := by
  unfold sweepByPacketIndex at h
  split at h
  · exact expireWhere_dismisses h
  · cases h
    exact ⟨[], .refl _⟩

theorem makeRoom_dismisses {ord : IterOrder} {s s' : TcpReassembler} {full : Bool}
    (h : makeRoom ord s = .ok (s', full)) : ∃ new, Dismissed s s' new := by
  unfold makeRoom at h
  split at h
  · rw [bind_eq_ok] at h
    obtain ⟨s₁, hs₁, heq⟩ := h
    cases heq
    exact evictFlows_dismisses hs₁
  · cases h
    exact ⟨[], .refl _⟩

/-! ## The steps of a packet -/

/-- All that a part of a call does to the flow at `key`, and nothing to any other. -/
structure Acts (s s' : TcpReassembler) (key : FlowKey) (flow : Option TcpFlow)
    (calls : List Event) (findings : List Finding) : Prop where
  config : s'.config = s.config
  flows : s'.flows = place s.flows key flow
  events : s'.events = s.events ++ calls
  tally : tally s' = record (tally s) findings

theorem Acts.trans {s s' s'' : TcpReassembler} {key : FlowKey} {f : TcpFlow}
    {flow : Option TcpFlow} {calls calls' : List Event} {fs gs : List Finding}
    (h : Acts s s' key (some f) calls fs) (h' : Acts s' s'' key flow calls' gs) :
    Acts s s'' key flow (calls ++ calls') (fs ++ gs) := by
  refine ⟨h'.config.trans h.config, ?_, ?_, ?_⟩
  · rw [h'.flows, h.flows]
    cases flow with
    | none => exact SortedMap.erase_insert _ _ _
    | some g => exact SortedMap.insert_insert _ _ _ _
  · rw [h'.events, h.events, List.append_assoc]
  · rw [h'.tally, h.tally, record_append]

/-- A flow that its FINs have closed is closed at once. -/
theorem closeIfFinished_eq_ok {s s' : TcpReassembler} {key : FlowKey} {g : TcpFlow}
    (hg : s.flows.get? key = some g) (h : closeIfFinished s key = .ok s') :
    (g.state = .closed ∧ ∃ calls, closeAlone key g .fin = .ok calls ∧ Acts s s' key none calls []) ∨
      (g.state ≠ .closed ∧ s' = s) := by
  unfold closeIfFinished at h
  rw [hg] at h
  simp only at h
  split at h
  · rename_i hstate
    obtain ⟨g', calls, hclosed⟩ := closeFlow_eq_ok h
    obtain rfl : g = g' := Option.some.inj (hg.symm.trans hclosed.flow)
    exact .inl ⟨hstate, calls, hclosed.handed, hclosed.config, hclosed.flows, hclosed.events,
      hclosed.tally⟩
  · rename_i hstate
    cases h
    exact .inr ⟨hstate, rfl⟩

section Packet

variable {s s' : TcpReassembler} {packet : ParsedPacket} {tcp : TcpFields} {p : FlowPacket}
  {f : TcpFlow} {timestamp : UInt32} (hp : flowPacket packet tcp = p)
  (hf : s.flows.get? p.key = some f)

include hp hf

theorem insertPayloadSegment_eq_ok {dir : Direction}
    (h : insertPayloadSegment s packet p.key tcp timestamp = .ok (s', dir)) :
    ∃ f₂ joined d result, joinFlow f p.src p.tcp.seq = (f₂, dir, joined) ∧
      insertSegment (f₂.dir dir) p.tcp.seq p.payload s.config.limits = .ok (d, result) ∧
      Acts s s' p.key (some (f₂.setDir dir (countSmallSegment s.config d p.payload result))) []
        (insertionFindings s.config p.key p.src.1 timestamp result) := by
  subst hp
  simp only [insertPayloadSegment, hf, unwrap, bind_eq_ok] at h
  obtain ⟨g, hg, ⟨d, result⟩, hins, u, -, total, -, heq⟩ := h
  cases hg
  obtain ⟨⟨f₂, dir', joined⟩, hjoin⟩ :
      ∃ out, joinFlow f (packet.srcIp, tcp.srcPort) tcp.seq = out := ⟨_, rfl⟩
  simp only [hjoin] at hins heq
  obtain ⟨hs', rfl⟩ := Prod.mk.inj (Except.ok.inj heq)
  refine ⟨f₂, joined, d, result, hjoin, hins, ?_⟩
  have hview := view_reportInsert { s with
    flows := s.flows.insert (flowPacket packet tcp).key
      (f₂.setDir dir' (countSmallSegment s.config d packet.payload result))
    totalMemory := total
    stats := { s.stats with
      flowsPartial := if joined then bump s.stats.flowsPartial else s.stats.flowsPartial } }
    (flowPacket packet tcp).key packet.srcIp timestamp
    (d.bufferedBytes - (f₂.dir dir').bufferedBytes) result
  rw [hs'] at hview
  refine ⟨congrArg View.config hview, congrArg View.flows hview, ?_, ?_⟩
  · rw [List.append_nil]
    exact congrArg View.events hview
  · rw [← hs', tally_reportInsert]
    rfl

theorem checkAnomalyThresholds_eq_ok {dir : Direction}
    (h : checkAnomalyThresholds s packet p.key dir timestamp = .ok s') :
    Acts s s' p.key (some (f.setDir dir (latchAlerts s.config p.key (f.dir dir)))) []
      ((Anomaly.all.filter (Anomaly.crossed s.config p.key (f.dir dir))).map
        (Anomaly.finding s.config p.key (f.dir dir) p.src.1 timestamp dir)) := by
  subst hp
  simp only [checkAnomalyThresholds, hf, unwrap, bind_eq_ok] at h
  obtain ⟨g, hg, heq⟩ := h
  cases hg
  have hs' := Except.ok.inj heq
  have hview := congrArg view hs'
  simp only [view_pushFindingIf] at hview
  refine ⟨(congrArg View.config hview).symm, (congrArg View.flows hview).symm, ?_, ?_⟩
  · rw [List.append_nil]
    exact (congrArg View.events hview).symm
  · rw [← hs', ← raisedFindings_eq]
    simp only [config_pushFindingIf, tally_pushFindingIf, record_append]
    rfl

omit hp in
theorem flushContiguousData_eq_ok {dir : Direction}
    (h : flushContiguousData s p.key dir timestamp = .ok s') :
    ∃ d' flushed, flushContiguous (f.dir dir) = .ok (d', flushed) ∧
      Acts s s' p.key (some (f.setDir dir d')) (dataEvents p.key dir timestamp flushed) [] := by
  simp only [flushContiguousData, hf, unwrap, bind_eq_ok] at h
  obtain ⟨g, hg, ⟨d', flushed⟩, hfl, freed, -, total, -, hdeliver⟩ := h
  cases hg
  obtain rfl := deliver_eq_ok hdeliver
  exact ⟨d', flushed, hfl, rfl, rfl, rfl, rfl⟩

theorem processPayload_eq_ok (h : processPayload s packet p.key tcp timestamp = .ok s') :
    ∃ f' out, payloadAlone s.config p.key f p timestamp = .ok (f', out) ∧ out.flow = some f' ∧
      Acts s s' p.key out.flow out.calls out.findings := by
  have hpayload : packet.payload = p.payload := by
    rw [← hp]
    rfl
  unfold processPayload at h
  unfold payloadAlone
  rw [hpayload] at h
  split at h
  · rename_i hempty
    rw [if_pos hempty]
    cases h
    exact ⟨f, _, rfl, rfl, rfl, (SortedMap.insert_of_get? _ hf).symm, by simp, rfl⟩
  · rename_i hempty
    rw [if_neg hempty]
    rw [bind_eq_ok] at h
    obtain ⟨⟨s₁, dir⟩, hins, h⟩ := h
    simp only [bind_eq_ok] at h
    obtain ⟨s₂, hchk, hflush⟩ := h
    obtain ⟨f₂, joined, d, result, hjoin, hseg, hacts₁⟩ := insertPayloadSegment_eq_ok hp hf hins
    have hf₁ : s₁.flows.get? p.key =
        some (f₂.setDir dir (countSmallSegment s.config d p.payload result)) := by
      rw [hacts₁.flows]
      exact SortedMap.get?_insert_self _ _ _
    have hacts₂ := checkAnomalyThresholds_eq_ok hp hf₁ hchk
    simp only [TcpFlow.dir_setDir_self, TcpFlow.setDir_setDir, hacts₁.config] at hacts₂
    have hf₂ := congrArg (fun m => m.get? p.key) hacts₂.flows
    simp only [place, SortedMap.get?_insert_self] at hf₂
    obtain ⟨d', flushed, hfl, hacts₃⟩ := flushContiguousData_eq_ok hf₂ hflush
    simp only [TcpFlow.dir_setDir_self, TcpFlow.setDir_setDir] at hfl hacts₃
    simp only [hjoin, hseg, bind, Except.bind, hfl]
    refine ⟨_, _, rfl, rfl, ?_⟩
    simpa using (hacts₁.trans hacts₂).trans hacts₃

/-- A reset closes the flow, and nothing comes after it. -/
theorem processOnFlow_rst_eq_ok {ord : IterOrder} (hrst : p.tcp.rst = true)
    (h : processOnFlow ord s packet p.key tcp timestamp = .ok s') :
    ∃ calls, closeAlone p.key (resetFlow f p) .rst = .ok calls ∧
      Acts s s' p.key none (p.event :: calls) [] := by
  have hevent : Event.packet p.key (packet.srcIp, tcp.srcPort) (packet.dstIp, tcp.dstPort) tcp
      packet.payload = p.event := by
    rw [← hp]
    rfl
  have hreset : (applySynFlags f (packet.srcIp, tcp.srcPort) (packet.dstIp, tcp.dstPort) tcp).onRst
      = resetFlow f p := by
    rw [← hp]
    rfl
  have hrst' : tcp.rst = true := by
    rw [← hrst, ← hp]
    rfl
  unfold processOnFlow at h
  simp only [hevent, applyHandshakeFlags, hf, unwrap, hrst', if_true, bind_eq_ok] at h
  obtain ⟨⟨s₁, post⟩, ⟨g, hg, s₂, hclose, heq⟩, h⟩ := h
  cases hg
  cases heq
  cases h
  obtain ⟨g, calls, hclosed⟩ := closeFlow_eq_ok hclose
  have hg := hclosed.flow
  rw [SortedMap.get?_insert_self, hreset] at hg
  cases hg
  refine ⟨calls, hclosed.handed, hclosed.config, ?_, ?_, hclosed.tally⟩
  · rw [hclosed.flows, SortedMap.erase_insert]
    rfl
  · rw [hclosed.events]
    simp

theorem processOnFlow_eq_ok {ord : IterOrder}
    (h : processOnFlow ord s packet p.key tcp timestamp = .ok s') :
    ∃ out s₁ new, packetAlone s.config p.key f p timestamp = .ok out ∧
      Acts s s₁ p.key out.flow (p.event :: out.calls) out.findings ∧ Dismissed s₁ s' new := by
  unfold packetAlone
  cases hrst : p.tcp.rst with
  | true =>
    obtain ⟨calls, hcalls, hacts⟩ := processOnFlow_rst_eq_ok hp hf hrst h
    simp only [if_true, hcalls]
    exact ⟨⟨none, calls, none, []⟩, s', [], rfl, hacts, .refl s'⟩
  | false =>
    have hevent : Event.packet p.key (packet.srcIp, tcp.srcPort) (packet.dstIp, tcp.dstPort) tcp
        packet.payload = p.event := by
      rw [← hp]
      rfl
    unfold processOnFlow at h
    simp only [hevent] at h
    rw [bind_eq_ok] at h
    obtain ⟨out₀, hflags, h⟩ := h
    rw [applyHandshakeFlags_proceed (s := { s with events := s.events ++ [p.event] }) hp hf hrst]
      at hflags
    cases hflags
    simp only [bind_eq_ok] at h
    obtain ⟨s₂, hpay, s₃, hfin, hmem⟩ := h
    obtain ⟨f', out, halone, hflow, hacts⟩ :=
      processPayload_eq_ok hp (SortedMap.get?_insert_self _ _ _) hpay
    obtain ⟨new, hdis⟩ := enforceMemcap_dismisses hmem
    have hacts₁ : Acts s { s with
        flows := s.flows.insert p.key (handshake f p), events := s.events ++ [p.event] } p.key
        (some (handshake f p)) [p.event] [] := ⟨rfl, rfl, rfl, rfl⟩
    have hacts₂ := hacts₁.trans hacts
    have hf₂ : s₂.flows.get? p.key = some f' := by
      rw [hacts.flows, hflow]
      exact SortedMap.get?_insert_self _ _ _
    simp only [Bool.false_eq_true, if_false, halone, bind, Except.bind]
    rcases closeIfFinished_eq_ok hf₂ hfin with ⟨hstate, calls, hcalls, hlast⟩ | ⟨hstate, rfl⟩
    · rw [if_pos hstate, hcalls]
      refine ⟨_, s₃, new, rfl, ?_, hdis⟩
      rw [hflow] at hacts₂
      simpa using hacts₂.trans hlast
    · rw [if_neg hstate]
      exact ⟨out, _, new, rfl, hacts₂, hdis⟩

end Packet

/-! ## The arrival of a packet -/

/-- The TCP fields of a packet and the key of its flow. -/
def tcpContext (packet : ParsedPacket) : Option (FlowKey × TcpFields) :=
  if packet.protocol ≠ .tcp then none
  else
    match packet.transport with
    | .tcp tcp => some (FlowKey.new packet.srcIp tcp.srcPort packet.dstIp tcp.dstPort, tcp)
    | _ => none

/-- `process_packet` up to the point where the flow of the packet is in the table. -/
def arrive (ord : IterOrder) (s : TcpReassembler) (packet : ParsedPacket) (timestamp : UInt32) :
    Checked (TcpReassembler × Option (FlowKey × TcpFields)) := do
  let packetIndex ← checkedInc 64 s.packetIndex
  let s := { s with
    stats := { s.stats with packetsProcessed := bump s.stats.packetsProcessed }
    packetIndex }
  let s ← sweepByTimestamp ord s timestamp
  let s ← sweepByPacketIndex ord s
  match extractTcpContext s packet with
  | (s, none) => .ok (s, none)
  | (s, some (key, tcp)) => do
    let s := { s with stats := { s.stats with packetsTcp := bump s.stats.packetsTcp } }
    let (s, found) ← getOrCreateFlow ord s key timestamp
    .ok (s, if found then some (key, tcp) else none)

theorem processPacket_eq (ord : IterOrder) (s : TcpReassembler) (packet : ParsedPacket)
    (timestamp : UInt32) :
    processPacket ord s packet timestamp = (do
      match ← arrive ord s packet timestamp with
      | (s, none) => .ok s
      | (s, some (key, tcp)) => processOnFlow ord s packet key tcp timestamp) := by
  unfold processPacket arrive
  simp only [bind_assoc]
  congr 1
  funext index
  congr 1
  funext s₁
  congr 1
  funext s₂
  obtain ⟨s₃, ctx⟩ := extractTcpContext s₂ packet
  cases ctx with
  | none => rfl
  | some ctx =>
    simp only [bind_assoc]
    congr 1
    funext out
    obtain ⟨s₄, found⟩ := out
    cases found <;> rfl

theorem extractTcpContext_eq (s : TcpReassembler) (packet : ParsedPacket) :
    ∃ s', view s' = view s ∧ tally s' = tally s ∧
      extractTcpContext s packet = (s', tcpContext packet) := by
  unfold extractTcpContext tcpContext
  split
  · exact ⟨{ s with stats := { s.stats with
      packetsSkippedNonTcp := bump s.stats.packetsSkippedNonTcp } }, rfl, rfl, rfl⟩
  · refine ⟨s, rfl, rfl, ?_⟩
    cases packet.transport <;> rfl

/-- The flow of the packet is new, or has been there before. -/
inductive Greets (s s' : TcpReassembler) (key : FlowKey) (timestamp : UInt32) : TcpFlow → Prop
  | created (index : Nat) (h : s.flows.get? key = none)
      (hflows : s'.flows = s.flows.insert key
        { TcpFlow.new key timestamp with lastActivityIndex := index })
      (hevents : s'.events = s.events ++ [.flowCreated key]) :
      Greets s s' key timestamp { TcpFlow.new key timestamp with lastActivityIndex := index }
  | known (f : TcpFlow) (index : Nat) (h : s.flows.get? key = some f)
      (hflows : s'.flows = s.flows.insert key
        { f with lastSeen := timestamp, lastActivityIndex := index })
      (hevents : s'.events = s.events) :
      Greets s s' key timestamp { f with lastSeen := timestamp, lastActivityIndex := index }

theorem getOrCreateFlow_eq_ok {ord : IterOrder} {s s' : TcpReassembler} {key : FlowKey}
    {timestamp : UInt32} (h : getOrCreateFlow ord s key timestamp = .ok (s', true)) :
    ∃ s₁ new f, Dismissed s s₁ new ∧ Greets s₁ s' key timestamp f ∧ s'.config = s.config ∧
      tally s' = tally s := by
  unfold getOrCreateFlow at h
  split at h
  · rename_i hnone
    rw [bind_eq_ok] at h
    obtain ⟨⟨s₁, full⟩, hroom, h⟩ := h
    obtain ⟨new, hdis⟩ := makeRoom_dismisses hroom
    simp only at h
    split at h
    · cases h
    · rw [touchFlow_eq (SortedMap.get?_insert_self _ _ _)] at h
      cases h
      have hnone₁ : s₁.flows.get? key = none := by
        cases hg : s₁.flows.get? key with
        | none => rfl
        | some f =>
          rw [hdis.shrinks key f hg] at hnone
          cases hnone
      exact ⟨s₁, new, _, hdis, .created s₁.packetIndex hnone₁ (SortedMap.insert_insert _ _ _ _) rfl,
        hdis.config, hdis.tally⟩
  · rename_i hsome
    cases hf : s.flows.get? key with
    | none => simp [hf] at hsome
    | some f =>
      rw [touchFlow_eq hf] at h
      cases h
      exact ⟨s, [], _, .refl s, .known f s.packetIndex hf rfl rfl, rfl, rfl⟩

theorem arrive_eq_ok {ord : IterOrder} {s s' : TcpReassembler} {packet : ParsedPacket}
    {timestamp : UInt32} {ctx : Option (FlowKey × TcpFields)} (hr : Ready (view s))
    (h : arrive ord s packet timestamp = .ok (s', ctx)) :
    ctx = tcpContext packet ∧ s'.config = s.config ∧ tally s' = tally s ∧ ∃ s₁ new,
      Dismissed s s₁ new ∧ (match ctx with
        | none => s'.flows = s₁.flows ∧ s'.events = s₁.events
        | some (key, _) => ∃ f, Greets s₁ s' key timestamp f) := by
  simp only [arrive, bind_eq_ok] at h
  obtain ⟨index, -, s₁, hs₁, s₂, hs₂, h⟩ := h
  have hr₁ : Ready (view s₁) := hr.retires ((sweepByTimestamp_returns ord
    (s := { s with
      stats := { s.stats with packetsProcessed := bump s.stats.packetsProcessed }
      packetIndex := index }) hr.wf timestamp).apply hs₁)
  have hr₂ := hr₁.retires ((sweepByPacketIndex_returns ord hr₁.wf).apply hs₂)
  obtain ⟨new₁, hdis₁⟩ := sweepByTimestamp_dismisses hs₁
  obtain ⟨new₂, hdis₂⟩ := sweepByPacketIndex_dismisses hs₂
  have hdis : Dismissed s s₂ (new₁ ++ new₂) := (hdis₁.trans hdis₂).of_eq rfl rfl rfl rfl
  obtain ⟨s₃, hview, htally, hctx⟩ := extractTcpContext_eq s₂ packet
  rw [hctx] at h
  cases htcp : tcpContext packet with
  | none =>
    rw [htcp] at h
    cases h
    exact ⟨rfl, (congrArg View.config hview).trans hdis.config, htally.trans hdis.tally, s₂, _,
      hdis, congrArg View.flows hview, congrArg View.events hview⟩
  | some kt =>
    obtain ⟨key, tcp⟩ := kt
    rw [htcp] at h
    simp only [bind_eq_ok] at h
    obtain ⟨⟨s₄, found⟩, hget, heq⟩ := h
    have hr₃ : Ready (view s₃) := by
      rw [hview]
      exact hr₂
    have hfound := ((getOrCreateFlow_returns ord (s := { s₃ with stats := { s₃.stats with
      packetsTcp := bump s₃.stats.packetsTcp } }) hr₃ key timestamp).2 _ hget).1
    simp only at hfound
    subst hfound
    cases heq
    obtain ⟨s₅, new, f, hdis', hgreets, hcfg, htly⟩ := getOrCreateFlow_eq_ok hget
    have hdis₃ : Dismissed s₂ s₅ new :=
      hdis'.of_eq (congrArg View.config hview) (congrArg View.flows hview)
        (congrArg View.events hview) htally
    exact ⟨rfl, (hcfg.trans (congrArg View.config hview)).trans hdis.config,
      (htly.trans htally).trans hdis.tally, s₅, _, hdis.trans hdis₃, f, hgreets⟩

theorem Greets.get? {s s' : TcpReassembler} {key : FlowKey} {timestamp : UInt32} {f : TcpFlow}
    (h : Greets s s' key timestamp f) : s'.flows.get? key = some f := by
  cases h with
  | created index hnone hflows hevents =>
    rw [hflows]
    exact SortedMap.get?_insert_self _ _ _
  | known g index hg hflows hevents =>
    rw [hflows]
    exact SortedMap.get?_insert_self _ _ _

theorem Greets.get?_other {s s' : TcpReassembler} {key k : FlowKey} {timestamp : UInt32}
    {f : TcpFlow} (h : Greets s s' key timestamp f) (hk : k ≠ key) :
    s'.flows.get? k = s.flows.get? k := by
  cases h with
  | created index hnone hflows hevents =>
    rw [hflows]
    exact SortedMap.get?_insert_of_ne _ _ hk
  | known g index hg hflows hevents =>
    rw [hflows]
    exact SortedMap.get?_insert_of_ne _ _ hk

theorem tcpContext_key {packet : ParsedPacket} {key : FlowKey} {tcp : TcpFields}
    (h : tcpContext packet = some (key, tcp)) : (flowPacket packet tcp).key = key := by
  unfold tcpContext at h
  split at h
  · cases h
  · cases hT : packet.transport with
    | tcp tcp' =>
      rw [hT] at h
      cases h
      rfl
    | _ =>
      rw [hT] at h
      cases h

/-- A call that reaches a flow: flows are dismissed, the flow is there, the packet acts on it,
and flows are dismissed again. -/
structure Handled (s s' : TcpReassembler) (key : FlowKey) (tcp : TcpFields)
    (packet : ParsedPacket) (timestamp : UInt32) (s₁ s₂ s₃ : TcpReassembler) (f : TcpFlow)
    (out : Outcome) (swept evicted : List Event) : Prop where
  before : Dismissed s s₁ swept
  greets : Greets s₁ s₂ key timestamp f
  config : s₂.config = s.config
  tally : tally s₂ = tally s
  alone : packetAlone s.config key f (flowPacket packet tcp) timestamp = .ok out
  acts : Acts s₂ s₃ key out.flow ((flowPacket packet tcp).event :: out.calls) out.findings
  after : Dismissed s₃ s' evicted

/-- The calls of a flow are deliveries and closes. -/
theorem forall_packetAlone {P : Event → Prop}
    (hdata : ∀ key dir data offset timestamp, P (.onData key dir data offset timestamp))
    (hclose : ∀ key reason, P (.onFlowClose key reason)) {config : ReassemblyConfig}
    {key : FlowKey} {f : TcpFlow} {p : FlowPacket} {timestamp : UInt32} {out : Outcome}
    (h : packetAlone config key f p timestamp = .ok out) : ∀ e ∈ out.calls, P e := by
  have hclosed : ∀ {g : TcpFlow} {reason : CloseReason} {calls : List Event},
      closeAlone key g reason = .ok calls → ∀ e ∈ calls, P e := by
    intro g reason calls hcalls
    obtain ⟨client, server, rfl⟩ := closeAlone_eq_ok hcalls
    refine List.forall_mem_append.mpr ⟨?_, fun e he => ?_⟩
    · exact forall_drainEvents (fun _ _ _ _ => hdata key _ _ _ _) g client server
    · rw [List.mem_singleton.mp he]
      exact hclose key reason
  unfold packetAlone at h
  split at h
  · obtain ⟨calls, hcalls, heq⟩ := bind_eq_ok.mp h
    cases heq
    exact hclosed hcalls
  · obtain ⟨⟨f', out'⟩, hpay, h⟩ := bind_eq_ok.mp h
    have hdelivered : ∀ e ∈ out'.calls, P e := by
      unfold payloadAlone at hpay
      split at hpay
      · cases hpay
        simp
      · simp only [bind_eq_ok] at hpay
        obtain ⟨x, -, y, -, heq⟩ := hpay
        cases heq
        exact forall_dataEvents (fun _ _ _ _ => hdata key _ _ _ _) _ _ _
    simp only at h
    split at h
    · obtain ⟨calls, hcalls, heq⟩ := bind_eq_ok.mp h
      cases heq
      exact List.forall_mem_append.mpr ⟨hdelivered, hclosed hcalls⟩
    · cases h
      exact hdelivered

/-- A flow adds no packet but the one it is given. -/
theorem isArrival_packetAlone {config : ReassemblyConfig} {key : FlowKey} {f : TcpFlow}
    {p : FlowPacket} {timestamp : UInt32} {out : Outcome}
    (h : packetAlone config key f p timestamp = .ok out) :
    ∀ e ∈ out.calls, isArrival e = false :=
  forall_packetAlone (fun _ _ _ _ _ => rfl) (fun _ _ => rfl) h

/-- What a call of `process_packet` does when it returns. -/
theorem processPacket_eq_ok {ord : IterOrder} {s s' : TcpReassembler} {packet : ParsedPacket}
    {timestamp : UInt32} (hr : Ready (view s))
    (h : processPacket ord s packet timestamp = .ok s') :
    (tcpContext packet = none ∧ ∃ s₂ new, Dismissed s s' new ∧
      arrive ord s packet timestamp = .ok (s₂, none)) ∨
    ∃ key tcp s₁ s₂ s₃ f out swept evicted, tcpContext packet = some (key, tcp) ∧
      Handled s s' key tcp packet timestamp s₁ s₂ s₃ f out swept evicted ∧
      arrive ord s packet timestamp = .ok (s₂, some (key, tcp)) := by
  rw [processPacket_eq, bind_eq_ok] at h
  obtain ⟨⟨s₂, ctx⟩, harr, h⟩ := h
  obtain ⟨hctx, hcfg, htally, s₁, swept, hdis, hmatch⟩ := arrive_eq_ok hr harr
  cases ctx with
  | none =>
    cases h
    exact .inl ⟨hctx.symm, _, swept, ⟨hcfg, htally, hmatch.2 ▸ hdis.events, hdis.noneCreated,
      hmatch.1 ▸ hdis.shrinks, hmatch.1 ▸ hdis.told, hdis.noneArrived⟩, harr⟩
  | some kt =>
    obtain ⟨key, tcp⟩ := kt
    obtain ⟨f, hgreets⟩ := hmatch
    have hkey := tcpContext_key hctx.symm
    subst hkey
    obtain ⟨out, s₃, evicted, halone, hacts, hdis'⟩ := processOnFlow_eq_ok rfl hgreets.get? h
    rw [hcfg] at halone
    exact .inr ⟨_, tcp, s₁, s₂, s₃, f, out, swept, evicted, hctx.symm,
      ⟨hdis, hgreets, hcfg, htally, halone, hacts, hdis'⟩, harr⟩

/-! ## Captures -/

/-- A packet of a capture and its time. -/
abbrev Input := ParsedPacket × UInt32

def receive (ord : IterOrder) (s : TcpReassembler) (i : Input) : Checked TcpReassembler :=
  processPacket ord s i.1 i.2

theorem receive_ready {ord : IterOrder} {config : ReassemblyConfig} {s s' : TcpReassembler}
    (h : Ready (view s) ∧ s.config = config) {i : Input} (hs' : receive ord s i = .ok s') :
    Ready (view s') ∧ s'.config = config := by
  obtain ⟨hr, hcfg⟩ := h
  obtain ⟨hpath, hr'⟩ := (processPacket_moves ord hr i.1 i.2).2 s' hs'
  exact ⟨hr', (path_config hpath).trans hcfg⟩

/-- A packet of a capture as a call. -/
def arrival (i : Input) : Call := .packet i.1 i.2

theorem run_receive (ord : IterOrder) (s : TcpReassembler) (inputs : List Input) :
    run (receive ord) s inputs = run (step ord) s (inputs.map arrival) := by
  rw [run, run, List.foldlM_map]
  rfl

theorem receive_run_counted (ord : IterOrder) {config : ReassemblyConfig} {s₀ : TcpReassembler}
    (hnew : TcpReassembler.new config = .ok s₀) (inputs : List Input) :
    ReturnsIf (Lasting config (inputs.map arrival)) (run (receive ord) s₀ inputs)
      (Counted config (inputs.map arrival)) := by
  rw [run_receive]
  exact run_counted ord hnew _

theorem receive_counted (ord : IterOrder) {config : ReassemblyConfig} {inputs : List Input}
    {s : TcpReassembler} (h : Counted config (inputs.map arrival) s) (i : Input) :
    ReturnsIf (Lasting config ((inputs ++ [i]).map arrival)) (receive ord s i)
      (Counted config ((inputs ++ [i]).map arrival)) := by
  rw [List.map_append]
  exact h.step ord (List.prefix_rfl)

theorem packets_arrivals (inputs : List Input) :
    Lasts.spent callPackets (inputs.map arrival) = inputs.length := by
  induction inputs with
  | nil => rfl
  | cons i inputs ih =>
    rw [List.map_cons, Lasts.spent_cons, ih]
    exact Nat.add_comm 1 _

/-- A packet of `src` at time 1, for concrete captures. -/
def segmentOf (src dst : Endpoint) (seq : UInt32) (syn : Bool) (payload : List UInt8) : Input :=
  (⟨src.1, dst.1, .tcp, .tcp ⟨src.2, dst.2, seq, syn, false, false, false⟩, payload⟩, 1)

end Wirerust.Alone
