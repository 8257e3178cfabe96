import Wirerust.Lib.Lasting
import Wirerust.Reassembly.Clock
import Wirerust.Reassembly.Retiring

/-!
Every call of the engine, described by the moves it makes.

* `insertPayloadSegment_returns` to `processOnFlow_moves`: the steps of a packet.
* `processPacket_spends`, `expireFlows_returns`, `finalize_closes`: the calls. They keep `Ready`,
  and a packet is taken as long as `Fits` holds and the counters have `Room` for it.
* `run_calls`, `run_moves`: the rules for invariants of whole runs. A run comes back as long as it
  is `Lasting`, and is `Counted` when it has come back.
-/

namespace Wirerust.EngineSpec

open Lib Wirerust.Segment Wirerust.Buffer Wirerust.Direction Wirerust.Flow Wirerust.Engine
  Wirerust.Moves Wirerust.Retiring Wirerust.Clock

/-! ## The flow of a packet -/

/-- No flow in the table is closed. -/
def NoClosed (v : View) : Prop := ∀ k f, v.flows.get? k = some f → f.state ≠ .closed

theorem NoClosed.shrinks {v v' : View} (h : NoClosed v) (hs : Shrinks v v') : NoClosed v' :=
  fun k f hf => h k f (hs.flows k f hf)

theorem NoClosed.insert {v v' : View} (h : NoClosed v) {key : FlowKey} {f : TcpFlow}
    (hflows : v'.flows = v.flows.insert key f) (hf : f.state ≠ .closed) : NoClosed v' := by
  intro k g hg
  rw [hflows] at hg
  by_cases hk : k = key
  · subst hk
    rw [SortedMap.get?_insert_self] at hg
    cases hg
    exact hf
  · rw [SortedMap.get?_insert_of_ne _ _ hk] at hg
    exact h k g hg

/-- What is known between two calls. -/
structure Ready (v : View) : Prop where
  wf : EngineWf v
  noClosed : NoClosed v
  memory : v.totalMemory ≤ v.config.memcap
  size : v.flows.size ≤ v.config.maxFlows
  room : 0 < v.config.maxFlows

theorem Ready.shrinks {v v' : View} (h : Ready v) (hs : Shrinks v v') (hwf : EngineWf v') :
    Ready v' := by
  refine ⟨hwf, h.noClosed.shrinks hs, ?_, ?_, ?_⟩
  · rw [hs.config]
    exact Nat.le_trans hs.totalMemory h.memory
  · rw [hs.config]
    exact Nat.le_trans hs.size h.size
  · rw [hs.config]
    exact h.room

theorem Ready.retires {v v' : View} (h : Ready v) (hr : Retires true v v') : Ready v' :=
  h.shrinks (Retires.shrinks hr) (Retires.wf hr h.wf)

theorem makeRoom_returns (ord : IterOrder) {s : TcpReassembler} (hr : Ready (view s)) :
    ReturnsIf (Fits s.config) (makeRoom ord s) (fun out => Retires true (view s) (view out.1) ∧
      out.2 = false ∧ out.1.flows.size < out.1.config.maxFlows) := by
  have hpos : 0 < s.config.maxFlows := hr.room
  unfold makeRoom
  split
  · refine (evictFlows_returns ord hr.wf .maxFlows).bind fun s' hs' => ReturnsIf.pure ?_
    have hcfg : s'.config = s.config := (Retires.shrinks hs'.1).config
    have hlt : s'.flows.size < s'.config.maxFlows := by
      rw [hcfg]
      omega
    exact ⟨hs'.1, by simpa using hlt, hlt⟩
  · rename_i hlt
    exact ReturnsIf.pure ⟨.refl, rfl, Nat.lt_of_not_le hlt⟩

theorem touchFlow_eq {s : TcpReassembler} {key : FlowKey} {f : TcpFlow}
    (hf : s.flows.get? key = some f) (timestamp : UInt32) :
    touchFlow s key timestamp = .ok { s with
      flows := s.flows.insert key
        { f with lastSeen := timestamp, lastActivityIndex := s.packetIndex } } := by
  rw [touchFlow, hf]
  rfl

theorem getOrCreateFlow_returns (ord : IterOrder) {s : TcpReassembler} (hr : Ready (view s))
    (key : FlowKey) (timestamp : UInt32) :
    ReturnsIf (Fits s.config) (getOrCreateFlow ord s key timestamp) (fun out =>
      out.2 = true ∧ Path (view s) (view out.1) ∧ Ready (view out.1) ∧
        (out.1.flows.get? key).isSome ∧ spent (view out.1) ≤ spent (view s)) := by
  unfold getOrCreateFlow
  split
  · rename_i hnone
    refine (makeRoom_returns ord hr).bind fun out hout => ?_
    obtain ⟨s₁, full⟩ := out
    obtain ⟨hret, hfull, hlt⟩ := hout
    simp only at hfull hret hlt
    have hr₁ := hr.retires hret
    have hnone₁ : s₁.flows.get? key = none := by
      cases hg : s₁.flows.get? key with
      | none => rfl
      | some f =>
        have hold : s.flows.get? key = some f := (Retires.shrinks hret).flows key f hg
        rw [hold] at hnone
        cases hnone
    simp only [hfull, Bool.false_eq_true, if_false]
    rw [touchFlow_eq (SortedMap.get?_insert_self _ _ _)]
    refine ReturnsIf.pure ?_
    have hmove := Move.create (view s₁) key timestamp s₁.packetIndex hnone₁ hlt
    simp only [SortedMap.insert_insert]
    refine ⟨trivial, (Retires.path hret).tail hmove,
      ⟨hmove.wf hr₁.wf, ?_, hr₁.memory, ?_, hr₁.room⟩, ?_, ?_⟩
    · exact hr₁.noClosed.insert rfl (by simp [TcpFlow.new])
    · simp only [view, SortedMap.size_insert_of_none _ _ hnone₁]
      exact hlt
    · rw [SortedMap.get?_insert_self]
      rfl
    · have hspent := Retires.spent_le hret hr.wf
      exact hspent
  · rename_i hsome
    obtain ⟨f, hf⟩ : ∃ f, s.flows.get? key = some f := by
      cases hg : s.flows.get? key with
      | none => simp [hg] at hsome
      | some f => exact ⟨f, rfl⟩
    rw [touchFlow_eq hf]
    refine ReturnsIf.pure ?_
    have hmove := Move.touch (view s) key f timestamp s.packetIndex hf
    refine ⟨rfl, .single hmove, ⟨hmove.wf hr.wf, ?_, hr.memory, ?_, hr.room⟩, ?_, Nat.le_refl _⟩
    · exact hr.noClosed.insert rfl (hr.noClosed key f hf)
    · simp only [view, SortedMap.size_insert_of_some _ _ hf]
      exact hr.size
    · simp only [SortedMap.get?_insert_self]
      rfl

/-! ## The payload -/

@[simp] theorem view_pushFinding (s : TcpReassembler) (finding : Finding) :
    view (pushFinding s finding) = view s := by
  unfold pushFinding
  split <;> rfl

@[simp] theorem view_pushFindingIf (crossed : Bool) (s : TcpReassembler) (finding : Finding) :
    view (pushFindingIf crossed s finding) = view s := by
  unfold pushFindingIf
  split
  · exact view_pushFinding s finding
  · rfl

@[simp] theorem view_reportInsert (s : TcpReassembler) (key : FlowKey) (srcIp : IpAddr)
    (timestamp : UInt32) (bytesAdded : Nat) (result : InsertResult) :
    view (reportInsert s key srcIp timestamp bytesAdded result) = view s := by
  cases result with
  | conflictingOverlap => exact view_pushFinding _ _
  | truncated => exact view_pushFinding _ _
  | segmentLimitReached =>
    simp only [reportInsert]
    split <;> rfl
  | _ => rfl

theorem marked_countSmallSegment (config : ReassemblyConfig) (d : FlowDirection)
    (payload : List UInt8) (result : InsertResult) :
    Marked d (countSmallSegment config d payload result) := by
  unfold countSmallSegment
  split
  · split <;> rfl
  · rfl

theorem Marked.trans {d d' d'' : FlowDirection} (h : Marked d d') (h' : Marked d' d'') :
    Marked d d'' := by
  unfold Marked at *
  rw [h', h]

theorem insertPayloadSegment_returns {s : TcpReassembler} {packet : ParsedPacket} {key : FlowKey}
    {tcp : TcpFields} (timestamp : UInt32) {f f₂ : TcpFlow} {dir : Direction} {joined : Bool}
    (hf : s.flows.get? key = some f)
    (hjoin : joinFlow f (packet.srcIp, tcp.srcPort) tcp.seq = (f₂, dir, joined))
    (hwf : Wf (f₂.dir dir)) :
    ReturnsIf (s.totalMemory + packet.payload.length < 2 ^ 64)
      (insertPayloadSegment s packet key tcp timestamp) (fun out => out.2 = dir ∧ ∃ d₁ d₂,
        Stored (f₂.dir dir) d₁
          (insertedPieces (f₂.dir dir) tcp.seq packet.payload s.config.limits) ∧
        Marked d₁ d₂ ∧
        view out.1 = { view s with
          flows := s.flows.insert key (f₂.setDir dir d₂)
          totalMemory := s.totalMemory + (d₁.bufferedBytes - (f₂.dir dir).bufferedBytes) }) := by
  unfold insertPayloadSegment
  refine ((unwrap_returns hf).returnsIf _).bind fun g hg => ?_
  rw [hg]
  simp only [hjoin]
  refine ((insertSegment_returns hwf.toTidy tcp.seq packet.payload s.config.limits).returnsIf
    _).bind fun out hst => ?_
  obtain ⟨d₁, result⟩ := out
  have hstored := hst.bufferedBytes
  have hpieces := insertedPieces_bytes_le hwf.toTidy tcp.seq packet.payload s.config.limits
  simp only at hstored
  have hle : d₁.bufferedBytes ≥ (f₂.dir dir).bufferedBytes := by
    rw [hstored]
    exact Nat.le_add_right _ _
  simp only [assertThat_of hle, ok_bind]
  refine ((checkedAdd_returnsIf 64 _ _).imp fun hroom => by omega).bind fun total htotal => ?_
  subst htotal
  refine ReturnsIf.pure ⟨rfl, d₁, countSmallSegment s.config d₁ packet.payload result, hst,
    marked_countSmallSegment _ _ _ _, ?_⟩
  rw [view_reportInsert]
  rfl

theorem checkAnomalyThresholds_returns {s : TcpReassembler} (packet : ParsedPacket) {key : FlowKey}
    (dir : Direction) (timestamp : UInt32) {f : TcpFlow} (hf : s.flows.get? key = some f) :
    Returns (checkAnomalyThresholds s packet key dir timestamp) (fun s' =>
      ∃ d', Marked (f.dir dir) d' ∧
        view s' = { view s with flows := s.flows.insert key (f.setDir dir d') }) := by
  unfold checkAnomalyThresholds
  refine (unwrap_returns hf).bind fun g hg => ?_
  rw [hg]
  refine Returns.pure ⟨latchAlerts s.config key (f.dir dir), rfl, ?_⟩
  simp only [view_pushFindingIf]
  rfl

theorem flushContiguousData_returns {s : TcpReassembler} {key : FlowKey} (dir : Direction)
    (timestamp : UInt32) {f : TcpFlow} (hf : s.flows.get? key = some f) (hwf : Wf (f.dir dir))
    (hmem : (f.dir dir).bufferedBytes ≤ s.totalMemory) :
    ReturnsIf (s.stats.bytesReassembled + (f.dir dir).bufferedBytes < 2 ^ 64)
      (flushContiguousData s key dir timestamp) (fun s' =>
      ∃ d' chunks, Flushed (f.dir dir) d' chunks ∧
        view s' = { view s with
          flows := s.flows.insert key (f.setDir dir d')
          totalMemory := s.totalMemory - ((f.dir dir).bufferedBytes - d'.bufferedBytes)
          bytesReassembled := s.stats.bytesReassembled + (contents chunks).length
          events := s.events ++ dataEvents key dir timestamp chunks }) := by
  unfold flushContiguousData
  refine ((unwrap_returns hf).returnsIf _).bind fun g hg => ?_
  rw [hg]
  refine ((flushContiguous_returns hwf).returnsIf _).bind fun out hfl => ?_
  obtain ⟨d', chunks⟩ := out
  have hbytes := hfl.bufferedBytes
  simp only at hbytes
  have hle : d'.bufferedBytes ≤ (f.dir dir).bufferedBytes := by omega
  have hle' : (f.dir dir).bufferedBytes - d'.bufferedBytes ≤ s.totalMemory :=
    Nat.le_trans (Nat.sub_le _ _) hmem
  simp only [checkedSub_of_le hle, checkedSub_of_le hle', ok_bind]
  refine ((deliver_returnsIf key dir timestamp chunks _).imp fun hroom => ?_).mono
    fun s' hs' => ⟨d', chunks, hfl, by rw [hs']; rfl⟩
  exact Nat.lt_of_le_of_lt (by simp only; omega) hroom

/-- A packet of the capture as its flow sees it. -/
def flowPacket (packet : ParsedPacket) (tcp : TcpFields) : FlowPacket :=
  ⟨(packet.srcIp, tcp.srcPort), (packet.dstIp, tcp.dstPort), tcp, packet.payload⟩

section Packet

variable {s : TcpReassembler} {packet : ParsedPacket} {tcp : TcpFields} {p : FlowPacket}
  {f : TcpFlow} (hp : flowPacket packet tcp = p) (hf : s.flows.get? p.key = some f)

include hp hf

theorem applyHandshakeFlags_proceed (hrst : p.tcp.rst = false) :
    applyHandshakeFlags s packet p.key tcp =
      .ok ({ s with flows := s.flows.insert p.key (handshake f p) }, .proceed) := by
  subst hp
  unfold applyHandshakeFlags
  have hrst' : ¬ tcp.rst = true := by
    rw [show tcp.rst = false from hrst]
    exact Bool.false_ne_true
  simp only [hf, if_neg hrst']
  rfl

variable (hwf : EngineWf (view s))

include hwf

/-- The state after the payload, given the state before the flags of the packet. -/
theorem processPayload_returns (timestamp : UInt32) :
    ReturnsIf (spent (view s) + p.payload.length < 2 ^ 64)
      (processPayload { s with flows := s.flows.insert p.key (handshake f p) }
        packet p.key tcp timestamp) (fun s' => ∃ f' dir chunks,
        Accepts s.config.limits f p f' dir chunks ∧
        view s' = { view s with
          flows := s.flows.insert p.key f'
          totalMemory := s.totalMemory + bufferedBytes f' - bufferedBytes f
          bytesReassembled := s.stats.bytesReassembled + (contents chunks).length
          events := s.events ++ dataEvents p.key dir timestamp chunks }) := by
  have hkept := kept_handshake f p
  unfold processPayload
  by_cases hnil : packet.payload = []
  · rw [if_pos (by rw [hnil]; rfl)]
    have hbare : p.payload = [] := by
      rw [← hp]
      exact hnil
    refine ReturnsIf.pure ⟨_, .clientToServer, [], .bare _ hbare, ?_⟩
    simp [view, bufferedBytes_eq_of_kept hkept, dataEvents, contents]
  · rw [if_neg (by simpa using hnil)]
    obtain ⟨⟨f₂, dir, joined⟩, hjoin⟩ : ∃ out, joinFlow (handshake f p) p.src p.tcp.seq = out :=
      ⟨_, rfl⟩
    have hkept₂ : ∀ w, Kept (f.dir w) (f₂.dir w) := fun w => by
      have := kept_joinFlow (handshake f p) p.src p.tcp.seq w
      rw [hjoin] at this
      exact (hkept w).trans this
    have hwf₂ : Wf (f₂.dir dir) := (hkept₂ dir).wf (hwf.wf _ f hf dir)
    have hbytes := bufferedBytes_eq_of_kept hkept₂
    have hle : bufferedBytes f ≤ s.totalMemory := hwf.bufferedBytes_le hf
    have hpart : (f₂.dir dir).bufferedBytes ≤ bufferedBytes f₂ := by
      cases dir with
      | clientToServer => exact Nat.le_add_right _ _
      | serverToClient => exact Nat.le_add_left _ _
    subst hp
    refine ReturnsIf.bind (ReturnsIf.imp (insertPayloadSegment_returns timestamp
      (SortedMap.get?_insert_self _ _ _) hjoin hwf₂) fun hroom => ?_) fun out hout => ?_
    · exact Nat.lt_of_le_of_lt (Nat.add_le_add_right (Nat.le_add_left _ _) _) hroom
    obtain ⟨s₁, dir'⟩ := out
    obtain ⟨hdir, d₁, d₂, hst, hmark, hview₁⟩ := hout
    obtain rfl : dir' = dir := hdir
    simp only [SortedMap.insert_insert] at hview₁
    have hflows₁ := congrArg View.flows hview₁
    refine ((checkAnomalyThresholds_returns (s := s₁) packet dir' timestamp
      (f := f₂.setDir dir' d₂) ?_).returnsIf _).bind fun s₂ h₂ => ?_
    · rw [show s₁.flows = _ from hflows₁, SortedMap.get?_insert_self]
    obtain ⟨d₃, hmark₃, hview₂⟩ := h₂
    rw [TcpFlow.dir_setDir_self] at hmark₃
    rw [hview₁, show s₁.flows = _ from hflows₁] at hview₂
    simp only [SortedMap.insert_insert, TcpFlow.setDir_setDir] at hview₂
    have hflows₂ := congrArg View.flows hview₂
    have hmem₂ := congrArg View.totalMemory hview₂
    have hcount₂ := congrArg View.bytesReassembled hview₂
    have hevents₂ := congrArg View.events hview₂
    have hmarked : Marked d₁ d₃ := Marked.trans hmark hmark₃
    have hd₃ : d₃.bufferedBytes = d₁.bufferedBytes := (Kept.of_marked hmarked).bufferedBytes
    have hd₁ : (f₂.dir dir').bufferedBytes ≤ d₁.bufferedBytes := by
      rw [hst.bufferedBytes]
      exact Nat.le_add_right _ _
    have hstored : d₁.bufferedBytes ≤ (f₂.dir dir').bufferedBytes + packet.payload.length := by
      rw [hst.bufferedBytes]
      exact Nat.add_le_add_left (insertedPieces_bytes_le hwf₂.toTidy _ _ _) _
    simp only [view] at hflows₂ hmem₂ hcount₂ hevents₂
    refine ReturnsIf.mono (ReturnsIf.imp (flushContiguousData_returns (s := s₂) dir' timestamp
      (f := f₂.setDir dir' d₃) ?_ ?_ ?_) fun hroom => ?_) fun s₃ h₃ => ?_
    · rw [hflows₂, SortedMap.get?_insert_self]
    · rw [TcpFlow.dir_setDir_self]
      exact (Kept.of_marked hmarked).wf (Direction.Stored.wf hst hwf₂)
    · rw [TcpFlow.dir_setDir_self, hmem₂]
      omega
    · rw [TcpFlow.dir_setDir_self, hcount₂]
      change s.stats.bytesReassembled + s.totalMemory + packet.payload.length < 2 ^ 64 at hroom
      omega
    obtain ⟨d₄, chunks, hfl, hview₃⟩ := h₃
    rw [TcpFlow.dir_setDir_self] at hfl hview₃
    refine ⟨f₂.setDir dir' d₄, dir', chunks, .data f₂ dir' joined d₁ d₃ d₄ chunks hnil hjoin hst
      hmarked hfl, ?_⟩
    have hset := bufferedBytes_setDir f₂ dir' d₄
    have hfreed := hfl.bufferedBytes
    have hsum : s.totalMemory + (d₁.bufferedBytes - (f₂.dir dir').bufferedBytes) -
        (d₃.bufferedBytes - d₄.bufferedBytes) =
          s.totalMemory + bufferedBytes (f₂.setDir dir' d₄) - bufferedBytes f := by
      omega
    rw [hview₃, hview₂, hflows₂, hmem₂, hcount₂, hevents₂, hsum]
    simp only [SortedMap.insert_insert, TcpFlow.setDir_setDir, view]

/-- A packet with RST: its flow is drained and leaves. -/
theorem applyHandshakeFlags_rst (hrst : p.tcp.rst = true) :
    Returns (applyHandshakeFlags s packet p.key tcp) (fun out => out.2 = .flowClosed ∧
      ∃ client server, Drains (resetFlow f p) client server ∧
        view out.1 =
          countClose (closed (view s) p.key (resetFlow f p) .rst client server) .rst) := by
  subst hp
  unfold applyHandshakeFlags
  refine (unwrap_returns hf).bind fun g hg => ?_
  have hrst' : tcp.rst = true := hrst
  rw [hg, if_pos hrst']
  have hkept := kept_resetFlow f (flowPacket packet tcp)
  refine (closeFlow_returns (f := resetFlow f (flowPacket packet tcp)) ?_ ?_ .rst).bind
    fun s' hs' => ?_
  · refine hwf.insert hf (fun w => (hkept w).wf (hwf.wf _ f hf w))
      ((hwf.settled _ f hf).kept hkept) rfl ?_
    rw [bufferedBytes_eq_of_kept hkept]
    exact (Nat.add_sub_cancel _ _).symm
  · exact SortedMap.get?_insert_self _ _ _
  · obtain ⟨client, server, hdrain, hview⟩ := hs'
    refine Returns.pure ⟨rfl, client, server, hdrain, ?_⟩
    rw [hview]
    simp only [closed, view, SortedMap.erase_insert, countClose]

end Packet

theorem closeIfFinished_returns {s : TcpReassembler} {key : FlowKey} {f : TcpFlow}
    (hwf : EngineWf (view s)) (hf : s.flows.get? key = some f) :
    Returns (closeIfFinished s key) (fun s' =>
      (f.state ≠ .closed ∧ s' = s) ∨
      (f.state = .closed ∧ Retire true (view s) key (view s'))) := by
  unfold closeIfFinished
  rw [hf]
  by_cases hclosed : f.state = .closed
  · simp only [if_pos hclosed]
    exact (closeFlow_retire hwf hf rfl fun _ => hclosed).mono fun s' hs' => .inr ⟨hclosed, hs'⟩
  · simp only [if_neg hclosed]
    exact Returns.pure (.inl ⟨hclosed, rfl⟩)

/-- Closing the one flow that may be closed leaves none that is. -/
theorem noClosed_of_finished {v v' v'' : View} {key : FlowKey} {f : TcpFlow} (h : NoClosed v)
    (hflows : v'.flows = v.flows.insert key f)
    (hfin : (f.state ≠ .closed ∧ v'' = v') ∨ (f.state = .closed ∧ Retire true v' key v'')) :
    NoClosed v'' := by
  rcases hfin with ⟨hopen, rfl⟩ | ⟨-, hret⟩
  · exact h.insert hflows hopen
  · intro k g hg
    rw [hret.flows, hflows, SortedMap.erase_insert] at hg
    exact h k g (get?_of_erase hg).2

/-- The end of a packet: its flow leaves if it is closed, then others if memory is short. -/
theorem finishPacket_moves (ord : IterOrder) {s s₂ : TcpReassembler} (hr : Ready (view s))
    {key : FlowKey} {f f' : TcpFlow} (hf : s.flows.get? key = some f)
    (hmove : Move (view s) (view s₂)) (hflows : s₂.flows = s.flows.insert key f') :
    ReturnsIf (Fits s.config) (do enforceMemcap ord (← closeIfFinished s₂ key)) (fun s' =>
      (Path (view s) (view s') ∧ Ready (view s')) ∧ spent (view s') ≤ spent (view s₂)) := by
  have hwf₂ := hmove.wf hr.wf
  have hf₂ : s₂.flows.get? key = some f' := by
    rw [hflows, SortedMap.get?_insert_self]
  refine ((closeIfFinished_returns hwf₂ hf₂).returnsIf _).bind fun s₃ h₃ => ?_
  have hfin : (f'.state ≠ .closed ∧ view s₃ = view s₂) ∨
      (f'.state = .closed ∧ Retire true (view s₂) key (view s₃)) :=
    h₃.imp_left fun h => ⟨h.1, congrArg view h.2⟩
  have hret : Retires true (view s₂) (view s₃) := by
    rcases hfin with ⟨-, heq⟩ | ⟨-, hret⟩
    · rw [heq]
    · exact .single ⟨key, hret⟩
  have hcfg : s₃.config = s.config := (Retires.shrinks hret).config.trans hmove.config
  rw [← hcfg]
  refine (enforceMemcap_returns ord (Retires.wf hret hwf₂)).mono fun s₄ h₄ => ?_
  have hshr := Retires.shrinks (hret.trans h₄.1)
  have hcfg₄ : (view s₄).config = (view s).config := hshr.config.trans hmove.config
  refine ⟨⟨(Relation.ReflTransGen.single hmove).trans (Retires.path (hret.trans h₄.1)), ?_, ?_,
    h₄.2, ?_, ?_⟩, Retires.spent_le (hret.trans h₄.1) hwf₂⟩
  · exact Retires.wf (hret.trans h₄.1) hwf₂
  · exact (noClosed_of_finished hr.noClosed hflows hfin).shrinks (Retires.shrinks h₄.1)
  · have hsize₂ : (view s₂).flows.size = s.flows.size := by
      rw [← SortedMap.size_insert_of_some _ f' hf, ← hflows]
      rfl
    rw [hcfg₄]
    exact Nat.le_trans hshr.size (hsize₂ ▸ hr.size)
  · rw [hcfg₄]
    exact hr.room

theorem processOnFlow_moves (ord : IterOrder) {s : TcpReassembler} (hr : Ready (view s))
    {packet : ParsedPacket} {tcp : TcpFields} {p : FlowPacket} (hp : flowPacket packet tcp = p)
    {f : TcpFlow} (hf : s.flows.get? p.key = some f) (timestamp : UInt32) :
    ReturnsIf (Fits s.config ∧ spent (view s) + p.payload.length < 2 ^ 64)
      (processOnFlow ord s packet p.key tcp timestamp) (fun s' =>
        (Path (view s) (view s') ∧ Ready (view s')) ∧
          spent (view s') ≤ spent (view s) + p.payload.length) := by
  have hevent : Event.packet p.key (packet.srcIp, tcp.srcPort) (packet.dstIp, tcp.dstPort) tcp
      packet.payload = p.event := by
    rw [← hp]
    rfl
  have hopen := hr.noClosed _ f hf
  unfold processOnFlow
  simp only [hevent]
  have hwf₁ : EngineWf (view { s with events := s.events ++ [p.event] }) :=
    ⟨hr.wf.wf, hr.wf.settled, hr.wf.memory⟩
  have hf₁ : ({ s with events := s.events ++ [p.event] } : TcpReassembler).flows.get? p.key =
      some f := hf
  cases hrst : p.tcp.rst with
  | true =>
    refine ((applyHandshakeFlags_rst hp hf₁ hwf₁ hrst).returnsIf _).bind fun out hout => ?_
    obtain ⟨s₁, post⟩ := out
    obtain ⟨hpost, client, server, hdrain, hview⟩ := hout
    simp only at hpost hview
    subst hpost
    have hmove : Move (view s) (view s₁) := by
      rw [hview]
      exact .reset (view s) f p client server hf hopen hrst hdrain
    refine ReturnsIf.pure ⟨⟨.single hmove, hr.shrinks ?_ (hmove.wf hr.wf)⟩, ?_⟩
    · rw [hview]
      exact ⟨rfl, rfl, Nat.sub_le _ _, SortedMap.size_erase_le _ _,
        fun k g hg => (get?_of_erase hg).2⟩
    · obtain ⟨rfl, rfl⟩ := ((hr.wf.settled _ f hf).kept (kept_resetFlow f p)).drains hdrain
      rw [hview]
      refine Nat.le_trans ?_ (Nat.le_add_right _ _)
      exact Nat.add_le_add_left (Nat.sub_le _ _) _
  | false =>
    rw [applyHandshakeFlags_proceed hp hf₁ hrst]
    refine ReturnsIf.bind (ReturnsIf.pure (P := fun out => out = (_, PostHandshake.proceed)) rfl)
      fun out hout => ?_
    subst hout
    refine ReturnsIf.bind ((processPayload_returns hp hf₁ hwf₁ timestamp).imp fun h => h.2)
      fun s₂ h₂ => ?_
    obtain ⟨f', dir, chunks, hacc, hview₂⟩ := h₂
    have hmove : Move (view s) (view s₂) := by
      have := Move.packet (view s) f f' p dir chunks timestamp hf hopen hrst hacc
      rw [hview₂]
      simpa [view] using this
    refine ((finishPacket_moves ord hr hf hmove (congrArg View.flows hview₂)).imp fun h => h.1).mono
      fun s' hs' => ⟨hs'.1, Nat.le_trans hs'.2 ?_⟩
    have hbytes := hacc.bytes_le (hr.wf.wf _ f hf)
    have hheld : bufferedBytes f ≤ s.totalMemory := hr.wf.bufferedBytes_le hf
    rw [hview₂]
    simp only [spent, view]
    omega

theorem extractTcpContext_cases (s : TcpReassembler) (packet : ParsedPacket) :
    ∃ s', view s' = view s ∧ (extractTcpContext s packet = (s', none) ∨
      ∃ tcp, extractTcpContext s packet = (s', some ((flowPacket packet tcp).key, tcp))) := by
  unfold extractTcpContext
  split
  · exact ⟨{ s with stats := { s.stats with
      packetsSkippedNonTcp := bump s.stats.packetsSkippedNonTcp } }, rfl, .inl rfl⟩
  · split
    · exact ⟨s, rfl, .inr ⟨_, rfl⟩⟩
    · exact ⟨s, rfl, .inl rfl⟩

/-! ## The calls -/

/-- The counters have room for so many packets and bytes. -/
structure Room (s : TcpReassembler) (packets bytes : Nat) : Prop where
  index : s.packetIndex + packets < 2 ^ 64
  bytes : spent (view s) + bytes < 2 ^ 64

theorem processPacket_spends (ord : IterOrder) {s : TcpReassembler} (hr : Ready (view s))
    (packet : ParsedPacket) (timestamp : UInt32) :
    ReturnsIf (Fits s.config ∧ Room s 1 packet.payload.length)
      (processPacket ord s packet timestamp) (fun s' =>
      (Path (view s) (view s') ∧ Ready (view s')) ∧
        spent (view s') ≤ spent (view s) + packet.payload.length) := by
  unfold processPacket
  refine ((checkedInc_returnsIf 64 s.packetIndex).imp fun h => h.2.index).bind fun index _ => ?_
  refine ((sweepByTimestamp_returns ord (s := { s with
    stats := { s.stats with packetsProcessed := bump s.stats.packetsProcessed }
    packetIndex := index }) hr.wf timestamp).returnsIf _).bind fun s₁ h₁ => ?_
  have hr₁ : Ready (view s₁) := hr.retires h₁
  refine ((sweepByPacketIndex_returns ord hr₁.wf).returnsIf _).bind fun s₂ h₂ => ?_
  have hr₂ := hr₁.retires h₂
  have hret : Retires true (view s) (view s₂) := h₁.trans h₂
  have hcfg : s₂.config = s.config := (Retires.shrinks hret).config
  have hspent₂ := Retires.spent_le hret hr.wf
  obtain ⟨s₃, hview₃, hctx | ⟨tcp, hctx⟩⟩ := extractTcpContext_cases s₂ packet
  · rw [hctx]
    refine ReturnsIf.pure ?_
    rw [hview₃]
    exact ⟨⟨Retires.path hret, hr₂⟩, Nat.le_trans hspent₂ (Nat.le_add_right _ _)⟩
  · rw [hctx]
    have hcfg₃ : s₃.config = s.config := (congrArg View.config hview₃).trans hcfg
    have hr₃ : Ready (view s₃) := by
      rw [hview₃]
      exact hr₂
    rw [← hcfg₃]
    refine ((getOrCreateFlow_returns ord (s := { s₃ with stats := { s₃.stats with
      packetsTcp := bump s₃.stats.packetsTcp } }) hr₃ _ timestamp).imp fun h => h.1).bind
        fun out hout => ?_
    obtain ⟨s₄, found⟩ := out
    obtain ⟨hfound, hpath₄, hr₄, hsome, hspent₄⟩ := hout
    simp only at hfound hpath₄ hr₄ hsome hspent₄
    obtain ⟨f, hf⟩ := Option.isSome_iff_exists.mp hsome
    simp only [hfound, if_true]
    have hcfg₄ : s₄.config = s₃.config := path_config hpath₄
    have hspent : spent (view s₄) ≤ spent (view s) := by
      refine Nat.le_trans hspent₄ ?_
      change spent (view s₃) ≤ spent (view s)
      rw [hview₃]
      exact hspent₂
    rw [← hcfg₄]
    refine ((processOnFlow_moves ord hr₄ rfl hf timestamp).imp fun h => ⟨h.1, ?_⟩).mono
      fun s₅ h₅ => ⟨⟨?_, h₅.1.2⟩, ?_⟩
    · exact Nat.lt_of_le_of_lt (Nat.add_le_add_right hspent _) h.2.bytes
    · have hpath : Path (view s) (view s₃) := by
        rw [hview₃]
        exact Retires.path hret
      exact (hpath.trans hpath₄).trans h₅.1.1
    · exact Nat.le_trans h₅.2 (Nat.add_le_add_right hspent _)

theorem processPacket_moves (ord : IterOrder) {s : TcpReassembler} (hr : Ready (view s))
    (packet : ParsedPacket) (timestamp : UInt32) :
    ReturnsIf (Fits s.config ∧ Room s 1 packet.payload.length)
      (processPacket ord s packet timestamp) (fun s' =>
      Path (view s) (view s') ∧ Ready (view s')) :=
  (processPacket_spends ord hr packet timestamp).mono fun _ h => h.1

theorem expireFlows_returns (ord : IterOrder) {s : TcpReassembler} (hr : Ready (view s))
    (currentTime : UInt32) :
    Returns (expireFlows ord s currentTime) (fun s' => Retires true (view s) (view s')) :=
  expireWhere_returns ord hr.wf _

/-- What `finalize` does the first time it is called. -/
theorem finalize_closes (ord : IterOrder) {s : TcpReassembler} (hwf : EngineWf (view s))
    (hfin : s.finalized = false) :
    Returns (finalize ord s) (fun s' =>
      Retires false { view s with finalized := true } (view s') ∧ s'.flows.entries = [] ∧
        s'.totalMemory = 0) := by
  unfold finalize
  rw [if_neg (by rw [hfin]; exact Bool.false_ne_true)]
  have hperm := (ord.perm s.iterations s.flows.entries).map Prod.fst
  refine (closeEach_returns false
    (s := { s with finalized := true, iterations := s.iterations + 1 }) ?_ _
    (hperm.nodup_iff.mpr (nodup_keys s.flows)) ⟨hwf.wf, hwf.settled, hwf.memory⟩ ?_).bind
    fun s' hs' => ?_
  · intro t key f ht hf
    refine (closeFlow_returns ht hf .timeout).mono fun t' ht' => ?_
    obtain ⟨client, server, hdrain, hview⟩ := ht'
    rw [hview]
    exact .mk key f .timeout client server hf hdrain (by simp)
  · intro k hk
    exact isSome_of_mem_keys (hperm.mem_iff.mp hk)
  · obtain ⟨hret, hnone⟩ := hs'
    have hempty : s'.flows.entries = [] := by
      apply List.eq_nil_iff_forall_not_mem.mpr
      intro e he
      have hget := (s'.flows.get?_eq_some_iff e.1 e.2).mpr he
      have hold := (Retires.shrinks hret).flows e.1 e.2 hget
      have hmem : e.1 ∈ s.flows.entries.map Prod.fst :=
        List.mem_map.mpr ⟨e, (s.flows.get?_eq_some_iff e.1 e.2).mp hold, rfl⟩
      rw [hnone e.1 (hperm.mem_iff.mpr hmem)] at hget
      cases hget
    have hzero : s'.totalMemory = 0 := by
      have := (Retires.wf hret ⟨hwf.wf, hwf.settled, hwf.memory⟩).memory
      simpa [SortedMap.sumBy, view, hempty] using this
    split
    · exact Returns.pure ⟨hret, hempty, hzero⟩
    · exact Returns.pure ⟨hret, hempty, hzero⟩

theorem finalize_ready (ord : IterOrder) {s : TcpReassembler} (hr : Ready (view s)) :
    Returns (finalize ord s) (fun s' => Ready (view s') ∧ s'.config = s.config) := by
  cases hfin : s.finalized with
  | true =>
    rw [finalize, if_pos hfin]
    exact Returns.pure ⟨hr, rfl⟩
  | false =>
    refine (finalize_closes ord hr.wf hfin).mono fun s' hs' => ?_
    have hr' : Ready { view s with finalized := true } :=
      ⟨⟨hr.wf.wf, hr.wf.settled, hr.wf.memory⟩, hr.noClosed, hr.memory, hr.size, hr.room⟩
    have hshrinks := Retires.shrinks hs'.1
    exact ⟨hr'.shrinks hshrinks (Retires.wf hs'.1 hr'.wf), hshrinks.config⟩

/-! ## Runs -/

inductive Call
  | packet (packet : ParsedPacket) (timestamp : UInt32)
  | expire (currentTime : UInt32)

def step (ord : IterOrder) (s : TcpReassembler) : Call → Checked TcpReassembler
  | .packet packet timestamp => processPacket ord s packet timestamp
  | .expire currentTime => expireFlows ord s currentTime

def callPackets : Call → Nat
  | .packet _ _ => 1
  | .expire _ => 0

def callBytes : Call → Nat
  | .packet packet _ => packet.payload.length
  | .expire _ => 0

theorem step_spends (ord : IterOrder) {s : TcpReassembler} (hr : Ready (view s)) (call : Call) :
    ReturnsIf (Fits s.config ∧ Room s (callPackets call) (callBytes call)) (step ord s call)
      (fun s' => (Path (view s) (view s') ∧ Ready (view s')) ∧
        spent (view s') ≤ spent (view s) + callBytes call) := by
  cases call with
  | packet packet timestamp => exact processPacket_spends ord hr packet timestamp
  | expire currentTime =>
    exact ((expireFlows_returns ord hr currentTime).returnsIf _).mono fun s' hs' =>
      ⟨⟨Retires.path hs', hr.retires hs'⟩, Retires.spent_le hs' hr.wf⟩

theorem step_moves {ord : IterOrder} {s s' : TcpReassembler} (hr : Ready (view s)) {call : Call}
    (h : step ord s call = .ok s') : Path (view s) (view s') ∧ Ready (view s') :=
  ((step_spends ord hr call).2 s' h).1

theorem step_packetIndex {ord : IterOrder} {s s' : TcpReassembler} {call : Call}
    (h : step ord s call = .ok s') : s'.packetIndex = s.packetIndex + callPackets call := by
  cases call with
  | packet packet timestamp => exact congrArg Prod.fst (processPacket_clock h)
  | expire currentTime => exact congrArg Prod.fst (expireFlows_clock h)

/-- Iteration in key order, for concrete runs. -/
def keyOrder : IterOrder := ⟨fun _ l => l, fun _ l => .refl l⟩

/-- Two endpoints, 10.0.0.1:80 and 10.0.0.2:90, for concrete runs. -/
def left : Endpoint := (.v4 0x0a000001, 80)

def right : Endpoint := (.v4 0x0a000002, 90)

def sampleKey : FlowKey := FlowKey.new left.1 left.2 right.1 right.2

/-- A call with a packet of `src`, for concrete runs. -/
def Call.segment (src dst : Endpoint) (seq : UInt32) (syn ack fin : Bool) (payload : List UInt8) :
    Call :=
  .packet ⟨src.1, dst.1, .tcp, .tcp ⟨src.2, dst.2, seq, syn, ack, fin, false⟩, payload⟩ 1

/-- The view of an engine that has just been made. -/
def View.init (config : ReassemblyConfig) : View where
  config := config
  flows := .empty
  totalMemory := 0
  bytesReassembled := 0
  finalized := false
  events := []
  flowsTotal := 0
  flowsFin := 0
  flowsRst := 0
  flowsExpired := 0
  evictions := 0

theorem new_eq_ok {config : ReassemblyConfig} {s : TcpReassembler}
    (h : TcpReassembler.new config = .ok s) :
    0 < config.maxFlows ∧ view s = View.init config := by
  simp only [TcpReassembler.new, bind_eq_ok] at h
  obtain ⟨u, -, u', -, u'', hflows, -, -, -, -, hs⟩ := h
  cases hs
  exact ⟨of_assertThat hflows, rfl⟩

theorem new_clock {config : ReassemblyConfig} {s : TcpReassembler}
    (h : TcpReassembler.new config = .ok s) : clock s = (0, 0) := by
  simp only [TcpReassembler.new, bind_eq_ok] at h
  obtain ⟨u, -, u', -, u'', -, -, -, -, -, hs⟩ := h
  cases hs
  rfl

theorem wf_init (config : ReassemblyConfig) : EngineWf (View.init config) :=
  ⟨by simp [View.init], by simp [View.init], rfl⟩

theorem Ready.init {config : ReassemblyConfig} (h : 0 < config.maxFlows) :
    Ready (View.init config) where
  wf := wf_init config
  noClosed := by simp [NoClosed, View.init]
  memory := Nat.zero_le _
  size := Nat.zero_le _
  room := h

theorem ready_new {config : ReassemblyConfig} {s₀ : TcpReassembler}
    (hnew : TcpReassembler.new config = .ok s₀) : Ready (view s₀) ∧ s₀.config = config := by
  obtain ⟨hpos, hview⟩ := new_eq_ok hnew
  refine ⟨?_, congrArg View.config hview⟩
  rw [hview]
  exact Ready.init hpos

/-- The calls have no more packets, and no more bytes in them, than the counters of 64 bits can
count. -/
structure Lasting (config : ReassemblyConfig) (calls : List Call) : Prop where
  fits : Fits config
  packets : Lasts.spent callPackets calls < 2 ^ 64
  bytes : Lasts.spent callBytes calls < 2 ^ 64

instance (config : ReassemblyConfig) (calls : List Call) : Decidable (Lasting config calls) :=
  decidable_of_iff (Fits config ∧ Lasts.spent callPackets calls < 2 ^ 64 ∧
    Lasts.spent callBytes calls < 2 ^ 64) ⟨fun h => ⟨h.1, h.2.1, h.2.2⟩, fun h => ⟨h.1, h.2, h.3⟩⟩

/-- What a run has counted. -/
structure Counted (config : ReassemblyConfig) (calls : List Call) (s : TcpReassembler) : Prop where
  config : s.config = config
  ready : Ready (view s)
  packets : s.packetIndex = Lasts.spent callPackets calls
  bytes : spent (view s) ≤ Lasts.spent callBytes calls

theorem Counted.init {config : ReassemblyConfig} {s₀ : TcpReassembler}
    (hnew : TcpReassembler.new config = .ok s₀) : Counted config [] s₀ := by
  obtain ⟨hr, hcfg⟩ := ready_new hnew
  refine ⟨hcfg, hr, congrArg Prod.fst (new_clock hnew), ?_⟩
  rw [(new_eq_ok hnew).2]
  exact Nat.le_refl 0

theorem spent_snoc (cost : Call → Nat) (calls : List Call) (call : Call) :
    Lasts.spent cost (calls ++ [call]) = Lasts.spent cost calls + cost call := by
  simp [Lasts.spent]

/-- The next call of a run that lasts finds room, and is counted. -/
theorem Counted.step (ord : IterOrder) {config : ReassemblyConfig} {pre calls : List Call}
    {s : TcpReassembler} (h : Counted config pre s) {call : Call}
    (hpre : (pre ++ [call]) <+: calls) :
    ReturnsIf (Lasting config calls) (step ord s call) (Counted config (pre ++ [call])) := by
  have hpackets := Lasts.spent_le_of_prefix callPackets hpre
  have hbytes := Lasts.spent_le_of_prefix callBytes hpre
  rw [spent_snoc] at hpackets hbytes
  refine ⟨fun hlast => ?_, fun s' hs' => ?_⟩
  · refine (step_spends ord h.ready call).1 ⟨h.config ▸ hlast.fits, ?_, ?_⟩
    · rw [h.packets]
      exact Nat.lt_of_le_of_lt hpackets hlast.packets
    · exact Nat.lt_of_le_of_lt (Nat.add_le_add_right h.bytes _)
        (Nat.lt_of_le_of_lt hbytes hlast.bytes)
  · obtain ⟨⟨hpath, hr⟩, hspent⟩ := (step_spends ord h.ready call).2 s' hs'
    refine ⟨(path_config hpath).trans h.config, hr, ?_, ?_⟩
    · rw [step_packetIndex hs', h.packets, spent_snoc]
    · rw [spent_snoc]
      exact Nat.le_trans hspent (Nat.add_le_add_right h.bytes _)

/-- A run lasts as long as its counters do. -/
theorem run_counted (ord : IterOrder) {config : ReassemblyConfig} {s₀ : TcpReassembler}
    (hnew : TcpReassembler.new config = .ok s₀) (calls : List Call) :
    ReturnsIf (Lasting config calls) (run (step ord) s₀ calls) (Counted config calls) :=
  run_returnsIf_seen calls (.init hnew) fun _ _ _ hpre h => h.step ord hpre

/-- The rule for whole runs: what every call keeps that returns holds after every run, and the run
lasts as long as its counters do. -/
theorem run_calls (ord : IterOrder) {config : ReassemblyConfig} {s₀ : TcpReassembler}
    (hnew : TcpReassembler.new config = .ok s₀) {I : List Call → TcpReassembler → Prop}
    (hinit : I [] s₀) (hstep : ∀ pre call s s', Ready (view s) → s.config = config → I pre s →
      step ord s call = .ok s' → I (pre ++ [call]) s') (calls : List Call) :
    ReturnsIf (Lasting config calls) (run (step ord) s₀ calls) (fun s =>
      Counted config calls s ∧ I calls s) := by
  refine run_returnsIf_seen (I := fun pre s => Counted config pre s ∧ I pre s) calls
    ⟨.init hnew, hinit⟩ fun pre call s hpre hs => ?_
  obtain ⟨hcounted, hI⟩ := hs
  have hnext := hcounted.step ord hpre
  exact ⟨hnext.1, fun s' hs' =>
    ⟨hnext.2 s' hs', hstep pre call s s' hcounted.ready hcounted.config hI hs'⟩⟩

theorem path_keeps {I : View → Prop} (hmove : ∀ v v', EngineWf v → I v → Move v v' → I v')
    {v v' : View} (h : Path v v') (hwf : EngineWf v) (hI : I v) : I v' := by
  induction h with
  | refl => exact hI
  | tail hpath hm ih => exact hmove _ _ (path_wf hpath hwf) ih hm

/-- What holds at the start and is kept by every move holds after every run of calls. -/
theorem run_moves (ord : IterOrder) {config : ReassemblyConfig} {s₀ : TcpReassembler}
    (hnew : TcpReassembler.new config = .ok s₀) {I : View → Prop} (hinit : I (View.init config))
    (hmove : ∀ v v', EngineWf v → I v → Move v v' → I v') (calls : List Call) :
    ReturnsIf (Lasting config calls) (run (step ord) s₀ calls) (fun s =>
      s.config = config ∧ Ready (view s) ∧ I (view s)) := by
  refine (run_calls ord hnew (I := fun _ s => I (view s)) ?_ ?_ calls).mono
    fun s hs => ⟨hs.1.config, hs.1.ready, hs.2⟩
  · rw [(new_eq_ok hnew).2]
    exact hinit
  · intro pre call s s' hr _ hI hs'
    exact path_keeps hmove (step_moves hr hs').1 hr.wf hI

end Wirerust.EngineSpec
