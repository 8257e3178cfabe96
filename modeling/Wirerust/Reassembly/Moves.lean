import Mathlib.Logic.Relation
import Wirerust.Reassembly.Engine
import Wirerust.Reassembly.Runs

/-!
What the engine can do to its flow table.

The part of the engine that the accounting and the handler protocol depend on is its `View`.
It changes by five kinds of `Move`: a flow is created, stamped, changed by a packet, reset by
a packet, or retired. Every call of the engine is a sequence of moves (shown in `EngineSpec`),
so an invariant only has to be kept by each move.

`EngineWf`, the first such invariant, is what keeps the code from panicking: every direction
is well formed, `total_memory` is the sum of what the flows have buffered, and no flow has
anything left to hand out (`Settled`), so that closing it counts no bytes.
-/

namespace Wirerust.Moves

open Lib Wirerust.Segment Wirerust.Buffer Wirerust.Direction Wirerust.Flow Wirerust.Engine

/-! ## One packet and its flow -/

/-- A packet as its flow sees it. -/
structure FlowPacket where
  src : Endpoint
  dst : Endpoint
  tcp : TcpFields
  payload : List UInt8

namespace FlowPacket

def key (p : FlowPacket) : FlowKey := FlowKey.new p.src.1 p.src.2 p.dst.1 p.dst.2

def event (p : FlowPacket) : Event := .packet p.key p.src p.dst p.tcp p.payload

end FlowPacket

def dataEvents (key : FlowKey) (dir : Direction) (timestamp : UInt32)
    (chunks : List (Chunk UInt8)) : List Event :=
  chunks.map fun c => .onData key dir c.2 c.1 timestamp

theorem forall_dataEvents {P : Event → Prop} {key : FlowKey}
    (h : ∀ dir data offset timestamp, P (.onData key dir data offset timestamp))
    (dir : Direction) (timestamp : UInt32) (chunks : List (Chunk UInt8)) :
    ∀ e ∈ dataEvents key dir timestamp chunks, P e := by
  intro e he
  obtain ⟨c, -, rfl⟩ := List.mem_map.mp he
  exact h dir c.2 c.1 timestamp

/-- The state after the `on_data` calls for the chunks of a flush. -/
def handOver (s : TcpReassembler) (key : FlowKey) (dir : Direction) (chunks : List (Chunk UInt8))
    (timestamp : UInt32) : TcpReassembler :=
  { s with
    stats := { s.stats with
      bytesReassembled := s.stats.bytesReassembled + (contents chunks).length }
    events := s.events ++ dataEvents key dir timestamp chunks }

theorem handOver_nil (s : TcpReassembler) (key : FlowKey) (dir : Direction) (timestamp : UInt32) :
    handOver s key dir [] timestamp = s := by
  simp [handOver, contents, dataEvents]

theorem handOver_cons (s : TcpReassembler) (key : FlowKey) (dir : Direction)
    (c : Chunk UInt8) (chunks : List (Chunk UInt8)) (timestamp : UInt32) :
    handOver (handOver s key dir [c] timestamp) key dir chunks timestamp =
      handOver s key dir (c :: chunks) timestamp := by
  simp [handOver, contents, dataEvents, Nat.add_assoc]

theorem onData_of_lt {s : TcpReassembler} {c : Chunk UInt8}
    (h : s.stats.bytesReassembled + c.2.length < 2 ^ 64) (key : FlowKey) (dir : Direction)
    (timestamp : UInt32) :
    onData s key dir timestamp c = .ok (handOver s key dir [c] timestamp) := by
  rw [onData, checkedAdd_of_lt h]
  simp [handOver, contents, dataEvents, Bind.bind, Except.bind]

theorem onData_eq_ok {s s' : TcpReassembler} {key : FlowKey} {dir : Direction}
    {timestamp : UInt32} {c : Chunk UInt8} (h : onData s key dir timestamp c = .ok s') :
    s' = handOver s key dir [c] timestamp := by
  by_cases hlt : s.stats.bytesReassembled + c.2.length < 2 ^ 64
  · rw [onData_of_lt hlt] at h
    exact (Except.ok.inj h).symm
  · rw [onData, checkedAdd, if_neg hlt] at h
    cases h

theorem deliver_nil (s : TcpReassembler) (key : FlowKey) (dir : Direction) (timestamp : UInt32) :
    deliver s key dir [] timestamp = .ok s := rfl

theorem deliver_of_lt (key : FlowKey) (dir : Direction) (timestamp : UInt32)
    (chunks : List (Chunk UInt8)) {s : TcpReassembler}
    (h : s.stats.bytesReassembled + (contents chunks).length < 2 ^ 64) :
    deliver s key dir chunks timestamp = .ok (handOver s key dir chunks timestamp) := by
  induction chunks generalizing s with
  | nil => rw [deliver_nil, handOver_nil]
  | cons c chunks ih =>
    rw [contents, List.flatMap_cons, List.length_append, ← Nat.add_assoc] at h
    have hfirst := onData_of_lt (Nat.lt_of_le_of_lt (Nat.le_add_right _ _) h) key dir timestamp
    rw [deliver, List.foldlM_cons, hfirst]
    refine (ih (s := handOver s key dir [c] timestamp) ?_).trans
      (congrArg Except.ok (handOver_cons s key dir c chunks timestamp))
    simpa [handOver, contents] using h

theorem deliver_eq_ok {key : FlowKey} {dir : Direction} {timestamp : UInt32}
    {chunks : List (Chunk UInt8)} {s s' : TcpReassembler}
    (h : deliver s key dir chunks timestamp = .ok s') :
    s' = handOver s key dir chunks timestamp := by
  induction chunks generalizing s with
  | nil =>
    rw [handOver_nil]
    exact (Except.ok.inj h).symm
  | cons c chunks ih =>
    rw [deliver, List.foldlM_cons, bind_eq_ok] at h
    obtain ⟨s₁, hs₁, hrest⟩ := h
    rw [← handOver_cons, ← onData_eq_ok hs₁]
    exact ih hrest

theorem deliver_returnsIf (key : FlowKey) (dir : Direction) (timestamp : UInt32)
    (chunks : List (Chunk UInt8)) (s : TcpReassembler) :
    ReturnsIf (s.stats.bytesReassembled + (contents chunks).length < 2 ^ 64)
      (deliver s key dir chunks timestamp) (fun s' => s' = handOver s key dir chunks timestamp) :=
  ⟨fun h => ⟨_, deliver_of_lt key dir timestamp chunks h⟩, fun _ h => deliver_eq_ok h⟩

/-- The flags of a packet without RST. -/
def handshake (f : TcpFlow) (p : FlowPacket) : TcpFlow :=
  applyFinFlag (applySynFlags f p.src p.dst p.tcp) p.src p.tcp

/-- The flags of a packet with RST. -/
def resetFlow (f : TcpFlow) (p : FlowPacket) : TcpFlow :=
  (applySynFlags f p.src p.dst p.tcp).onRst

/-- Only counters and latches that the engine itself maintains are different. -/
def Marked (d d' : FlowDirection) : Prop :=
  d' = { d with
    smallSegmentRun := d'.smallSegmentRun
    overlapAlertFired := d'.overlapAlertFired
    smallSegmentAlertFired := d'.smallSegmentAlertFired
    outOfWindowAlertFired := d'.outOfWindowAlertFired }

/-- All that a packet without RST does to its flow: the flags, and for a payload the join,
the insertion and the flush, which hands out `chunks` of direction `dir`. -/
inductive Accepts (lim : Limits) (f : TcpFlow) (p : FlowPacket) :
    TcpFlow → Direction → List (Chunk UInt8) → Prop
  | bare (dir : Direction) (hnil : p.payload = []) : Accepts lim f p (handshake f p) dir []
  | data (f₂ : TcpFlow) (dir : Direction) (joined : Bool) (d₁ d₂ d₃ : FlowDirection)
      (chunks : List (Chunk UInt8)) (hne : p.payload ≠ [])
      (hjoin : joinFlow (handshake f p) p.src p.tcp.seq = (f₂, dir, joined))
      (hst : Stored (f₂.dir dir) d₁ (insertedPieces (f₂.dir dir) p.tcp.seq p.payload lim))
      (hmark : Marked d₁ d₂) (hfl : Flushed d₂ d₃ chunks) :
      Accepts lim f p (f₂.setDir dir d₃) dir chunks

/-- What the two directions of a flow hand out when it is closed. -/
structure Drains (f : TcpFlow) (client server : List (Chunk UInt8)) : Prop where
  client : ∃ d, Flushed f.clientToServer d client
  server : ∃ d, Flushed f.serverToClient d server

/-! ## Views and moves -/

structure View where
  config : ReassemblyConfig
  flows : SortedMap FlowKey TcpFlow
  totalMemory : Nat
  bytesReassembled : Nat
  finalized : Bool
  events : List Event
  flowsTotal : Nat
  flowsFin : Nat
  flowsRst : Nat
  flowsExpired : Nat
  evictions : Nat

def view (s : TcpReassembler) : View where
  config := s.config
  flows := s.flows
  totalMemory := s.totalMemory
  bytesReassembled := s.stats.bytesReassembled
  finalized := s.finalized
  events := s.events
  flowsTotal := s.stats.flowsTotal
  flowsFin := s.stats.flowsFin
  flowsRst := s.stats.flowsRst
  flowsExpired := s.stats.flowsExpired
  evictions := s.stats.evictions

def bufferedBytes (f : TcpFlow) : Nat :=
  f.clientToServer.bufferedBytes + f.serverToClient.bufferedBytes

/-- The counter that goes with each reason to close a flow. -/
def countClose (v : View) : CloseReason → View
  | .fin => { v with flowsFin := bump v.flowsFin }
  | .rst => { v with flowsRst := bump v.flowsRst }
  | .timeout => { v with flowsExpired := bump v.flowsExpired }
  | .memoryPressure => { v with evictions := bump v.evictions }

/-- The last `on_data` calls of a flow. -/
def drainEvents (key : FlowKey) (f : TcpFlow) (client server : List (Chunk UInt8)) : List Event :=
  dataEvents key .clientToServer f.lastSeen client ++
    dataEvents key .serverToClient f.lastSeen server

theorem forall_drainEvents {P : Event → Prop} {key : FlowKey}
    (h : ∀ dir data offset timestamp, P (.onData key dir data offset timestamp))
    (f : TcpFlow) (client server : List (Chunk UInt8)) :
    ∀ e ∈ drainEvents key f client server, P e := by
  intro e he
  rcases List.mem_append.mp he with he | he
  · exact forall_dataEvents h _ _ _ e he
  · exact forall_dataEvents h _ _ _ e he

def closeEvents (key : FlowKey) (f : TcpFlow) (reason : CloseReason)
    (client server : List (Chunk UInt8)) : List Event :=
  drainEvents key f client server ++ [.onFlowClose key reason]

def closed (v : View) (key : FlowKey) (f : TcpFlow) (reason : CloseReason)
    (client server : List (Chunk UInt8)) : View :=
  { v with
    flows := v.flows.erase key
    totalMemory := v.totalMemory - bufferedBytes f
    bytesReassembled := v.bytesReassembled + (contents client).length + (contents server).length
    events := v.events ++ closeEvents key f reason client server }

/-- A flow leaves the table; `finalize` does not count it. -/
inductive Retire (counted : Bool) (v : View) : FlowKey → View → Prop
  | mk (key : FlowKey) (f : TcpFlow) (reason : CloseReason) (client server : List (Chunk UInt8))
      (h : v.flows.get? key = some f) (hdrain : Drains f client server)
      (hfin : reason = .fin → f.state = .closed) :
      Retire counted v key
        (if counted then countClose (closed v key f reason client server) reason
        else closed v key f reason client server)

inductive Move : View → View → Prop
  | create (v : View) (key : FlowKey) (timestamp : UInt32) (index : Nat)
      (h : v.flows.get? key = none) (hroom : v.flows.size < v.config.maxFlows) :
      Move v { v with
        flows := v.flows.insert key { TcpFlow.new key timestamp with lastActivityIndex := index }
        flowsTotal := bump v.flowsTotal
        events := v.events ++ [.flowCreated key] }
  | touch (v : View) (key : FlowKey) (f : TcpFlow) (timestamp : UInt32) (index : Nat)
      (h : v.flows.get? key = some f) :
      Move v { v with
        flows := v.flows.insert key
          { f with lastSeen := timestamp, lastActivityIndex := index } }
  | packet (v : View) (f f' : TcpFlow) (p : FlowPacket) (dir : Direction)
      (chunks : List (Chunk UInt8)) (timestamp : UInt32) (h : v.flows.get? p.key = some f)
      (hopen : f.state ≠ .closed) (hrst : p.tcp.rst = false)
      (hacc : Accepts v.config.limits f p f' dir chunks) :
      Move v { v with
        flows := v.flows.insert p.key f'
        totalMemory := v.totalMemory + bufferedBytes f' - bufferedBytes f
        bytesReassembled := v.bytesReassembled + (contents chunks).length
        events := v.events ++ p.event :: dataEvents p.key dir timestamp chunks }
  | reset (v : View) (f : TcpFlow) (p : FlowPacket) (client server : List (Chunk UInt8))
      (h : v.flows.get? p.key = some f) (hopen : f.state ≠ .closed) (hrst : p.tcp.rst = true)
      (hdrain : Drains (resetFlow f p) client server) :
      Move v (countClose
        (closed { v with events := v.events ++ [p.event] } p.key (resetFlow f p) .rst client server)
        .rst)
  | retire (v v' : View) (key : FlowKey) (h : Retire true v key v') : Move v v'

abbrev Path : View → View → Prop := Relation.ReflTransGen Move

/-! ## What the flags leave alone -/

/-- The buffer is as it was; an ISN may have been learned. -/
structure Kept (d d' : FlowDirection) : Prop where
  segments : d'.segments = d.segments
  bufferedBytes : d'.bufferedBytes = d.bufferedBytes
  reassembledBytes : d'.reassembledBytes = d.reassembledBytes
  depthExceeded : d'.depthExceeded = d.depthExceeded
  isn : (d'.isn = d.isn ∧ d'.baseOffset = d.baseOffset) ∨
    (d.isn = none ∧ d'.isn ≠ none ∧ d'.baseOffset = 1)

namespace Kept

theorem refl (d : FlowDirection) : Kept d d := ⟨rfl, rfl, rfl, rfl, .inl ⟨rfl, rfl⟩⟩

theorem trans {d d' d'' : FlowDirection} (h : Kept d d') (h' : Kept d' d'') : Kept d d'' := by
  refine ⟨h'.segments.trans h.segments, h'.bufferedBytes.trans h.bufferedBytes,
    h'.reassembledBytes.trans h.reassembledBytes, h'.depthExceeded.trans h.depthExceeded, ?_⟩
  rcases h.isn with ⟨hi, hb⟩ | ⟨hi, hs, hb⟩
  · rw [← hi, ← hb]
    exact h'.isn
  · rcases h'.isn with ⟨hi', hb'⟩ | ⟨hi', -⟩
    · exact .inr ⟨hi, by rw [hi']; exact hs, hb'.trans hb⟩
    · exact absurd hi' hs

theorem wf {d d' : FlowDirection} (h : Kept d d') (hwf : Wf d) : Wf d' := by
  refine ⟨⟨?_, ?_⟩, ?_⟩
  · rw [h.segments]
    exact hwf.nonempty
  · rw [h.segments]
    exact hwf.apart
  · rw [h.segments, h.bufferedBytes]
    exact hwf.accounted

theorem setIsn (d : FlowDirection) (isn : UInt32) : Kept d (setIsn d isn) := by
  unfold Segment.setIsn
  split
  · rename_i h
    exact ⟨rfl, rfl, rfl, rfl, .inr ⟨Option.isNone_iff_eq_none.mp h, by simp, rfl⟩⟩
  · exact refl d

theorem of_marked {d d' : FlowDirection} (h : Marked d d') : Kept d d' := by
  rw [h]
  exact ⟨rfl, rfl, rfl, rfl, .inl ⟨rfl, rfl⟩⟩

end Kept

section Flags

variable (f : TcpFlow)

@[simp] theorem dir_setInitiator (e : Endpoint) (w : Direction) :
    (f.setInitiator e).dir w = f.dir w := by
  unfold TcpFlow.setInitiator
  split <;> cases w <;> rfl

@[simp] theorem dir_onSyn (w : Direction) : f.onSyn.dir w = f.dir w := by
  unfold TcpFlow.onSyn
  split <;> cases w <;> rfl

@[simp] theorem dir_onSynAck (w : Direction) : f.onSynAck.dir w = f.dir w := by
  unfold TcpFlow.onSynAck
  split <;> cases w <;> rfl

@[simp] theorem dir_onDataWithoutSyn (w : Direction) : f.onDataWithoutSyn.dir w = f.dir w := by
  unfold TcpFlow.onDataWithoutSyn
  split <;> cases w <;> rfl

@[simp] theorem dir_onFin (w : Direction) : f.onFin.dir w = f.dir w := by
  simp only [TcpFlow.onFin]
  split
  · cases w <;> rfl
  · split <;> cases w <;> rfl

@[simp] theorem dir_onRst (w : Direction) : f.onRst.dir w = f.dir w := by
  cases w <;> rfl

theorem kept_setDir {dir : Direction} {d : FlowDirection} (h : Kept (f.dir dir) d)
    (w : Direction) : Kept (f.dir w) ((f.setDir dir d).dir w) := by
  by_cases hw : w = dir
  · subst hw
    rw [TcpFlow.dir_setDir_self]
    exact h
  · rw [TcpFlow.dir_setDir_of_ne f hw]
    exact Kept.refl _

/-- The ISN of the direction of a packet with SYN. -/
def learnIsn (src : Endpoint) (seq : UInt32) : TcpFlow :=
  f.setDir (f.direction src) (setIsn (f.dir (f.direction src)) seq)

theorem applySynFlags_cases (src dst : Endpoint) (tcp : TcpFields) :
    (tcp.syn = false ∧ applySynFlags f src dst tcp = f) ∨
    (tcp.syn = true ∧ tcp.ack = false ∧
      applySynFlags f src dst tcp = (learnIsn (f.setInitiator src) src tcp.seq).onSyn) ∨
    (tcp.syn = true ∧ tcp.ack = true ∧
      applySynFlags f src dst tcp = (learnIsn (f.setInitiator dst) src tcp.seq).onSynAck) := by
  obtain ⟨srcPort, dstPort, seq, syn, ack, fin, rst⟩ := tcp
  cases syn with
  | false => exact .inl ⟨rfl, rfl⟩
  | true =>
    cases ack with
    | false => exact .inr (.inl ⟨rfl, rfl, rfl⟩)
    | true => exact .inr (.inr ⟨rfl, rfl, rfl⟩)

theorem kept_learnIsn (src : Endpoint) (seq : UInt32) (w : Direction) :
    Kept (f.dir w) ((learnIsn f src seq).dir w) :=
  kept_setDir f (Kept.setIsn _ seq) w

theorem kept_applySynFlags (src dst : Endpoint) (tcp : TcpFields) (w : Direction) :
    Kept (f.dir w) ((applySynFlags f src dst tcp).dir w) := by
  rcases applySynFlags_cases f src dst tcp with ⟨-, h⟩ | ⟨-, -, h⟩ | ⟨-, -, h⟩
  · rw [h]
    exact Kept.refl _
  · rw [h, dir_onSyn]
    simpa using kept_learnIsn (f.setInitiator src) src tcp.seq w
  · rw [h, dir_onSynAck]
    simpa using kept_learnIsn (f.setInitiator dst) src tcp.seq w

theorem kept_applyFinFlag (src : Endpoint) (tcp : TcpFields) (w : Direction) :
    Kept (f.dir w) ((applyFinFlag f src tcp).dir w) := by
  unfold applyFinFlag
  split
  · rw [dir_onFin]
    apply kept_setDir f
    exact ⟨rfl, rfl, rfl, rfl, .inl ⟨rfl, rfl⟩⟩
  · exact Kept.refl _

theorem kept_handshake (p : FlowPacket) (w : Direction) :
    Kept (f.dir w) ((handshake f p).dir w) :=
  (kept_applySynFlags f p.src p.dst p.tcp w).trans (kept_applyFinFlag _ p.src p.tcp w)

theorem kept_resetFlow (p : FlowPacket) (w : Direction) :
    Kept (f.dir w) ((resetFlow f p).dir w) := by
  rw [resetFlow, dir_onRst]
  exact kept_applySynFlags f p.src p.dst p.tcp w

/-- Who a mid-stream join takes for the initiator. -/
def joined (src : Endpoint) : TcpFlow :=
  if f.state = .new then f.onDataWithoutSyn.setInitiator src else f

@[simp] theorem dir_joined (src : Endpoint) (w : Direction) : (joined f src).dir w = f.dir w := by
  unfold joined
  split
  · simp
  · rfl

theorem learnIsn_of_known {src : Endpoint} {seq : UInt32}
    (h : (f.dir (f.direction src)).isn.isNone = false) : learnIsn f src seq = f := by
  rw [learnIsn, setIsn, if_neg (by rw [h]; exact Bool.false_ne_true), TcpFlow.setDir_dir]

@[simp] theorem direction_learnIsn (src src' : Endpoint) (seq : UInt32) :
    (learnIsn f src seq).direction src' = f.direction src' := TcpFlow.direction_setDir _ _ _ _

theorem learnIsn_known (src : Endpoint) (seq : UInt32) :
    ((learnIsn f src seq).dir (f.direction src)).isn.isNone = false := by
  rw [learnIsn, TcpFlow.dir_setDir_self, setIsn]
  by_cases h : (f.dir (f.direction src)).isn.isNone
  · rw [if_pos h]
    rfl
  · rw [if_neg h]
    exact Bool.eq_false_of_not_eq_true h

/-- A join infers the ISN at most once. -/
theorem joinFlow_eq (src : Endpoint) (seq : UInt32) :
    joinFlow f src seq = (learnIsn (joined f src) src (seq - 1),
      (joined f src).direction src, f.state == .new) := by
  have hlast : ∀ g : TcpFlow, (if (g.dir (g.direction src)).isn.isNone then
      g.setDir (g.direction src) (inferIsn (g.dir (g.direction src)) seq) else g) =
        learnIsn g src (seq - 1) := by
    intro g
    by_cases h : (g.dir (g.direction src)).isn.isNone
    · rw [if_pos h]
      rfl
    · rw [if_neg h, learnIsn_of_known g (Bool.eq_false_of_not_eq_true h)]
  unfold joinFlow joined
  by_cases hnew : f.state = .new
  · have hfirst : ∀ g : TcpFlow,
        g.setDir (g.direction src) (inferIsn (g.dir (g.direction src)) seq) =
          learnIsn g src (seq - 1) := fun _ => rfl
    simp only [hnew, beq_self_eq_true, if_true]
    rw [hlast, hfirst, direction_learnIsn,
      learnIsn_of_known (learnIsn _ src _)
        (by rw [direction_learnIsn]; exact learnIsn_known _ src _)]
  · simp only [hnew, beq_eq_false_iff_ne.mpr hnew, Bool.false_eq_true, if_false, hlast]

theorem kept_joinFlow (src : Endpoint) (seq : UInt32) (w : Direction) :
    Kept (f.dir w) ((joinFlow f src seq).1.dir w) := by
  rw [joinFlow_eq]
  simpa using kept_learnIsn (joined f src) src (seq - 1) w

end Flags

/-! ## Nothing is left to hand out -/

/-- What the direction waits for is not in its buffer, and without an ISN nothing is. -/
structure Drained (d : FlowDirection) : Prop where
  waits : d.segments.get? d.baseOffset = none
  unopened : d.isn = none → d.segments.entries = []

def Settled (f : TcpFlow) : Prop := ∀ w, Drained (f.dir w)

theorem Drained.init : Drained .new := ⟨rfl, fun _ => rfl⟩

theorem Kept.drained {d d' : FlowDirection} (hk : Kept d d') (h : Drained d) : Drained d' := by
  rcases hk.isn with ⟨hisn, hbase⟩ | ⟨hnone, hsome, -⟩
  · refine ⟨?_, fun hnew => ?_⟩
    · rw [hk.segments, hbase]
      exact h.waits
    · rw [hk.segments]
      exact h.unopened (hisn.symm.trans hnew)
  · refine ⟨?_, fun hnew => absurd hnew hsome⟩
    rw [hk.segments]
    simp [SortedMap.get?, h.unopened hnone]

theorem Drained.flushes {d d' : FlowDirection} {chunks : List (Chunk UInt8)} (h : Drained d)
    (hfl : Flushed d d' chunks) : chunks = [] := by
  cases chunks with
  | nil => rfl
  | cons c chunks =>
    have hmem : (d.baseOffset, c.2) ∈ d.segments.entries := by
      rw [← hfl.contiguous.1]
      exact hfl.entries.mem_iff.mpr (List.mem_append_left _ List.mem_cons_self)
    have hnone := h.waits
    rw [(d.segments.get?_eq_some_iff _ _).mpr hmem] at hnone
    cases hnone

theorem Settled.drains {f : TcpFlow} (h : Settled f) {client server : List (Chunk UInt8)}
    (hdrain : Drains f client server) : client = [] ∧ server = [] := by
  obtain ⟨dc, hclient⟩ := hdrain.client
  obtain ⟨ds, hserver⟩ := hdrain.server
  exact ⟨(h .clientToServer).flushes hclient, (h .serverToClient).flushes hserver⟩

theorem Settled.kept {f f' : TcpFlow} (h : Settled f) (hk : ∀ w, Kept (f.dir w) (f'.dir w)) :
    Settled f' := fun w => (hk w).drained (h w)

theorem joinFlow_isn (f : TcpFlow) (src : Endpoint) (seq : UInt32) :
    ((joinFlow f src seq).1.dir (joinFlow f src seq).2.1).isn ≠ none := by
  rw [joinFlow_eq]
  intro hnone
  have hknown := learnIsn_known (joined f src) src (seq - 1)
  rw [hnone] at hknown
  cases hknown

/-- A packet flushes what it has completed. -/
theorem Accepts.settled {lim : Limits} {f f' : TcpFlow} {p : FlowPacket} {dir : Direction}
    {chunks : List (Chunk UInt8)} (h : Accepts lim f p f' dir chunks) (hf : Settled f) :
    Settled f' := by
  have hhand : Settled (handshake f p) := hf.kept (kept_handshake f p)
  cases h with
  | bare dir hnil => exact hhand
  | data f₂ dir joined d₁ d₂ d₃ chunks hne hjoin hst hmark hfl =>
    intro w
    by_cases hw : w = dir
    · subst hw
      rw [TcpFlow.dir_setDir_self]
      refine ⟨hfl.drained, fun hnone => ?_⟩
      have hisn := joinFlow_isn (handshake f p) p.src p.tcp.seq
      rw [hjoin] at hisn
      rw [hfl.frame, hmark] at hnone
      exact absurd (hst.isn.symm.trans hnone) hisn
    · rw [TcpFlow.dir_setDir_of_ne f₂ hw]
      have hk := kept_joinFlow (handshake f p) p.src p.tcp.seq w
      rw [hjoin] at hk
      exact hk.drained (hhand w)

/-! ## Well-formed engines -/

structure EngineWf (v : View) : Prop where
  wf : ∀ k f, v.flows.get? k = some f → ∀ w, Wf (f.dir w)
  settled : ∀ k f, v.flows.get? k = some f → Settled f
  memory : v.totalMemory = v.flows.sumBy (fun e => bufferedBytes e.2)

/-- A property of the flows of a table is kept where one of them is replaced. -/
theorem forall_insert {P : TcpFlow → Prop} {m : SortedMap FlowKey TcpFlow}
    (h : ∀ k f, m.get? k = some f → P f) {key : FlowKey} {f : TcpFlow} (hf : P f) :
    ∀ k g, (m.insert key f).get? k = some g → P g := by
  intro k g hg
  by_cases hk : k = key
  · subst hk
    rw [SortedMap.get?_insert_self] at hg
    cases hg
    exact hf
  · rw [SortedMap.get?_insert_of_ne _ _ hk] at hg
    exact h k g hg

theorem forall_erase {P : TcpFlow → Prop} {m : SortedMap FlowKey TcpFlow}
    (h : ∀ k f, m.get? k = some f → P f) (key : FlowKey) :
    ∀ k g, (m.erase key).get? k = some g → P g := by
  intro k g hg
  by_cases hk : k = key
  · subst hk
    rw [SortedMap.get?_erase_self] at hg
    cases hg
  · rw [SortedMap.get?_erase_of_ne _ hk] at hg
    exact h k g hg

theorem bufferedBytes_eq_of_kept {f f' : TcpFlow} (h : ∀ w, Kept (f.dir w) (f'.dir w)) :
    bufferedBytes f' = bufferedBytes f := by
  have hc := (h .clientToServer).bufferedBytes
  have hs := (h .serverToClient).bufferedBytes
  simp only [TcpFlow.dir] at hc hs
  rw [bufferedBytes, bufferedBytes, hc, hs]

theorem bufferedBytes_setDir (f : TcpFlow) (w : Direction) (d : FlowDirection) :
    bufferedBytes (f.setDir w d) + (f.dir w).bufferedBytes = bufferedBytes f + d.bufferedBytes := by
  cases w <;> simp only [bufferedBytes, TcpFlow.setDir, TcpFlow.dir] <;> omega

theorem Accepts.bytes_le {lim : Limits} {f f' : TcpFlow} {p : FlowPacket} {dir : Direction}
    {chunks : List (Chunk UInt8)} (h : Accepts lim f p f' dir chunks)
    (hwf : ∀ w, Wf (f.dir w)) :
    (contents chunks).length + bufferedBytes f' ≤ bufferedBytes f + p.payload.length := by
  have hhand := bufferedBytes_eq_of_kept (kept_handshake f p)
  cases h with
  | bare dir hnil =>
    rw [hhand]
    exact (Nat.le_of_eq (Nat.zero_add _)).trans (Nat.le_add_right _ _)
  | data f₂ dir joined d₁ d₂ d₃ chunks hne hjoin hst hmark hfl =>
    have hkept : ∀ w, Kept (f.dir w) (f₂.dir w) := fun w => by
      have hjoined := kept_joinFlow (handshake f p) p.src p.tcp.seq w
      rw [hjoin] at hjoined
      exact (kept_handshake f p w).trans hjoined
    have hpieces := insertedPieces_bytes_le ((hkept dir).wf (hwf dir)).toTidy p.tcp.seq p.payload
      lim
    have hstored := hst.bufferedBytes
    have hmarked := (Kept.of_marked hmark).bufferedBytes
    have hflushed := hfl.bufferedBytes
    have hset := bufferedBytes_setDir f₂ dir d₃
    have hsame := bufferedBytes_eq_of_kept hkept
    omega

theorem Accepts.wf {lim : Limits} {f f' : TcpFlow} {p : FlowPacket} {dir : Direction}
    {chunks : List (Chunk UInt8)} (h : Accepts lim f p f' dir chunks)
    (hwf : ∀ w, Wf (f.dir w)) (w : Direction) : Wf (f'.dir w) := by
  have hhand : ∀ w, Wf ((handshake f p).dir w) := fun w => (kept_handshake f p w).wf (hwf w)
  cases h with
  | bare dir hnil => exact hhand w
  | data f₂ dir joined d₁ d₂ d₃ chunks hne hjoin hst hmark hfl =>
    have hf₂ : ∀ w, Wf (f₂.dir w) := fun w => by
      have := (kept_joinFlow (handshake f p) p.src p.tcp.seq w).wf (hhand w)
      rwa [hjoin] at this
    by_cases hw : w = dir
    · subst hw
      rw [TcpFlow.dir_setDir_self]
      exact hfl.wf ((Kept.of_marked hmark).wf (Direction.Stored.wf hst (hf₂ w)))
    · rw [TcpFlow.dir_setDir_of_ne f₂ hw]
      exact hf₂ w

namespace EngineWf

variable {v : View} (h : EngineWf v)

include h

theorem bufferedBytes_le {key : FlowKey} {f : TcpFlow} (hf : v.flows.get? key = some f) :
    bufferedBytes f ≤ v.totalMemory := by
  rw [h.memory, SortedMap.sumBy_erase _ _ hf]
  exact Nat.le_add_right _ _

/-- Replacing one flow. -/
theorem insert {key : FlowKey} {f f' : TcpFlow} (hf : v.flows.get? key = some f)
    (hf' : ∀ w, Wf (f'.dir w)) (hset : Settled f') {v' : View}
    (hflows : v'.flows = v.flows.insert key f')
    (hmem : v'.totalMemory = v.totalMemory + bufferedBytes f' - bufferedBytes f) :
    EngineWf v' := by
  refine ⟨?_, ?_, ?_⟩
  · rw [hflows]
    exact forall_insert h.wf hf'
  · rw [hflows]
    exact forall_insert h.settled hset
  · have hold := SortedMap.sumBy_erase (fun e => bufferedBytes e.2) v.flows hf
    rw [hmem, hflows, SortedMap.sumBy_insert, h.memory, hold]
    simp only
    omega

theorem erase {key : FlowKey} {f f' : TcpFlow} (hf : v.flows.get? key = some f)
    (hbytes : bufferedBytes f' = bufferedBytes f) {v' : View}
    (hflows : v'.flows = v.flows.erase key)
    (hmem : v'.totalMemory = v.totalMemory - bufferedBytes f') : EngineWf v' := by
  refine ⟨?_, ?_, ?_⟩
  · rw [hflows]
    exact forall_erase h.wf key
  · rw [hflows]
    exact forall_erase h.settled key
  · have hold := SortedMap.sumBy_erase (fun e => bufferedBytes e.2) v.flows hf
    rw [hmem, hbytes, hflows, h.memory, hold]
    simp only
    omega

end EngineWf

@[simp] theorem countClose_flows (v : View) (reason : CloseReason) :
    (countClose v reason).flows = v.flows := by
  cases reason <;> rfl

@[simp] theorem countClose_totalMemory (v : View) (reason : CloseReason) :
    (countClose v reason).totalMemory = v.totalMemory := by
  cases reason <;> rfl

@[simp] theorem countClose_bytesReassembled (v : View) (reason : CloseReason) :
    (countClose v reason).bytesReassembled = v.bytesReassembled := by
  cases reason <;> rfl

@[simp] theorem countClose_events (v : View) (reason : CloseReason) :
    (countClose v reason).events = v.events := by
  cases reason <;> rfl

@[simp] theorem countClose_config (v : View) (reason : CloseReason) :
    (countClose v reason).config = v.config := by
  cases reason <;> rfl

@[simp] theorem countClose_flowsTotal (v : View) (reason : CloseReason) :
    (countClose v reason).flowsTotal = v.flowsTotal := by
  cases reason <;> rfl

@[simp] theorem countClose_finalized (v : View) (reason : CloseReason) :
    (countClose v reason).finalized = v.finalized := by
  cases reason <;> rfl

/-- What a retired flow leaves behind. -/
structure Retired (v v' : View) (key : FlowKey) (f : TcpFlow) (reason : CloseReason)
    (client server : List (Chunk UInt8)) : Prop where
  flow : v.flows.get? key = some f
  drains : Drains f client server
  fin : reason = .fin → f.state = .closed
  config : v'.config = v.config
  finalized : v'.finalized = v.finalized
  flows : v'.flows = v.flows.erase key
  totalMemory : v'.totalMemory = v.totalMemory - bufferedBytes f
  bytesReassembled : v'.bytesReassembled =
    v.bytesReassembled + (contents client).length + (contents server).length
  events : v'.events = v.events ++ closeEvents key f reason client server

theorem Retire.result {counted : Bool} {v v' : View} {key : FlowKey} (h : Retire counted v key v') :
    ∃ f reason client server, Retired v v' key f reason client server := by
  cases h with
  | mk f reason client server hf hdrain hfin =>
    refine ⟨f, reason, client, server, ?_⟩
    cases counted with
    | false => exact ⟨hf, hdrain, hfin, rfl, rfl, rfl, rfl, rfl, rfl⟩
    | true => constructor <;> first | assumption | simp [closed]

theorem Retire.flows {counted : Bool} {v v' : View} {key : FlowKey} (h : Retire counted v key v') :
    v'.flows = v.flows.erase key := by
  obtain ⟨f, reason, client, server, hret⟩ := h.result
  exact hret.flows

theorem Retire.wf {counted : Bool} {v v' : View} {key : FlowKey} (h : Retire counted v key v')
    (hwf : EngineWf v) : EngineWf v' := by
  obtain ⟨f, reason, client, server, hret⟩ := h.result
  exact hwf.erase hret.flow rfl hret.flows hret.totalMemory

theorem Move.wf {v v' : View} (h : Move v v') (hwf : EngineWf v) : EngineWf v' := by
  cases h with
  | create key timestamp index hnone hroom =>
    refine ⟨forall_insert hwf.wf fun w => ?_, forall_insert hwf.settled fun w => ?_, ?_⟩
    · cases w <;> exact Runs.Inv.init.wf
    · cases w <;> exact Drained.init
    · have hzero :
          bufferedBytes { TcpFlow.new key timestamp with lastActivityIndex := index } = 0 := rfl
      simp only [SortedMap.sumBy_insert, SortedMap.erase_of_none _ hnone, hzero, Nat.zero_add]
      exact hwf.memory
  | touch key f timestamp index hf =>
    refine hwf.insert hf (fun w => ?_) (fun w => ?_) rfl ?_
    · have := hwf.wf key f hf w
      cases w <;> exact this
    · have := hwf.settled key f hf w
      cases w <;> exact this
    · exact (Nat.add_sub_cancel _ _).symm
  | packet f f' p dir chunks timestamp hf hopen hrst hacc =>
    exact hwf.insert hf (hacc.wf (hwf.wf _ f hf)) (hacc.settled (hwf.settled _ f hf)) rfl rfl
  | reset f p client server hf hopen hrst hdrain =>
    refine hwf.erase hf (bufferedBytes_eq_of_kept (kept_resetFlow f p)) ?_ ?_
    · simp [closed]
    · simp [closed]
  | retire _ key hret => exact hret.wf hwf

/-- The bytes that have been handed out, and those that still may be. -/
def spent (v : View) : Nat := v.bytesReassembled + v.totalMemory

/-- What a flow had buffered when it was closed is not handed out any more. -/
theorem Retire.spent_le {counted : Bool} {v v' : View} {key : FlowKey}
    (h : Retire counted v key v') (hwf : EngineWf v) : spent v' ≤ spent v := by
  obtain ⟨f, reason, client, server, hret⟩ := h.result
  obtain ⟨rfl, rfl⟩ := (hwf.settled key f hret.flow).drains hret.drains
  rw [spent, spent, hret.bytesReassembled, hret.totalMemory]
  exact Nat.add_le_add_left (Nat.sub_le _ _) _

theorem Move.config {v v' : View} (h : Move v v') : v'.config = v.config := by
  cases h with
  | retire _ key hret =>
    obtain ⟨f, reason, client, server, hret⟩ := hret.result
    exact hret.config
  | _ => rfl

theorem Move.finalized {v v' : View} (h : Move v v') : v'.finalized = v.finalized := by
  cases h with
  | retire _ key hret =>
    obtain ⟨f, reason, client, server, hret⟩ := hret.result
    exact hret.finalized
  | _ => rfl

end Wirerust.Moves
