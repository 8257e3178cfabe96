import Wirerust.Reassembly.Lifetimes
import Wirerust.Reassembly.Alone

/-!
The two sweeps of `process_packet`, over whole captures.

`Steady` says that a step leaves the stamps of the flows alone and times no flow out. Every step
of a packet after the sweeps is steady, apart from the stamping of its own flow. `run_expires` then
says which flows are left after a packet, and which flows a packet can time out.
-/

namespace Wirerust.Expiry

open Lib Wirerust.Segment Wirerust.Flow Wirerust.Engine Wirerust.Moves Wirerust.Retiring
  Wirerust.Clock Wirerust.EngineSpec Wirerust.Lifetimes Wirerust.Alone

/-! ## Stamps -/

/-- When the last packet of a flow was seen. -/
def stamp (f : TcpFlow) : UInt32 × Nat := (f.lastSeen, f.lastActivityIndex)

section Stamp

variable (f : TcpFlow)

@[simp] theorem stamp_setDir (w : Direction) (d : FlowDirection) :
    stamp (f.setDir w d) = stamp f := by
  cases w <;> rfl

@[simp] theorem stamp_setInitiator (e : Endpoint) : stamp (f.setInitiator e) = stamp f := by
  unfold TcpFlow.setInitiator
  split <;> rfl

@[simp] theorem stamp_onSyn : stamp f.onSyn = stamp f := by
  unfold TcpFlow.onSyn
  split <;> rfl

@[simp] theorem stamp_onSynAck : stamp f.onSynAck = stamp f := by
  unfold TcpFlow.onSynAck
  split <;> rfl

@[simp] theorem stamp_onDataWithoutSyn : stamp f.onDataWithoutSyn = stamp f := by
  unfold TcpFlow.onDataWithoutSyn
  split <;> rfl

@[simp] theorem stamp_onFin : stamp f.onFin = stamp f := by
  simp only [TcpFlow.onFin]
  split
  · rfl
  · split <;> rfl

@[simp] theorem stamp_onRst : stamp f.onRst = stamp f := rfl

@[simp] theorem stamp_learnIsn (src : Endpoint) (seq : UInt32) :
    stamp (learnIsn f src seq) = stamp f := stamp_setDir f _ _

@[simp] theorem stamp_applySynFlags (src dst : Endpoint) (tcp : TcpFields) :
    stamp (applySynFlags f src dst tcp) = stamp f := by
  rcases applySynFlags_cases f src dst tcp with ⟨-, h⟩ | ⟨-, -, h⟩ | ⟨-, -, h⟩
  · rw [h]
  · rw [h]
    simp
  · rw [h]
    simp

@[simp] theorem stamp_applyFinFlag (src : Endpoint) (tcp : TcpFields) :
    stamp (applyFinFlag f src tcp) = stamp f := by
  unfold applyFinFlag
  split
  · simp
  · rfl

theorem stamp_joinFlow (src : Endpoint) (seq : UInt32) :
    stamp (joinFlow f src seq).1 = stamp f := by
  rw [joinFlow_eq, stamp_learnIsn, Moves.joined]
  split
  · simp
  · rfl

end Stamp

/-! ## Steps that are not about time -/

def isTimeout : Event → Bool
  | .onFlowClose _ .timeout => true
  | _ => false

/-- No flow has timed out, and the only new stamp is `fresh`. -/
structure Steady (fresh : UInt32 × Nat) (s s' : TcpReassembler) : Prop where
  config : s'.config = s.config
  flows : ∀ k f', s'.flows.get? k = some f' →
    stamp f' = fresh ∨ ∃ f, s.flows.get? k = some f ∧ stamp f' = stamp f
  events : ∃ new, s'.events = s.events ++ new ∧ ∀ e ∈ new, isTimeout e = false

namespace Steady

variable {fresh : UInt32 × Nat}

theorem of_eq {s s' : TcpReassembler} (hc : s'.config = s.config)
    (hf : s'.flows = s.flows) (he : s'.events = s.events) : Steady fresh s s' := by
  refine ⟨hc, fun k f hk => .inr ⟨f, hf ▸ hk, rfl⟩, [], ?_, by simp⟩
  rw [he, List.append_nil]

theorem refl (s : TcpReassembler) : Steady fresh s s := .of_eq rfl rfl rfl

theorem trans {s s' s'' : TcpReassembler} (h : Steady fresh s s') (h' : Steady fresh s' s'') :
    Steady fresh s s'' := by
  obtain ⟨new, hnew, hquiet⟩ := h.events
  obtain ⟨new', hnew', hquiet'⟩ := h'.events
  refine ⟨h'.config.trans h.config, fun k f'' hf'' => ?_, new ++ new', ?_,
    List.forall_mem_append.mpr ⟨hquiet, hquiet'⟩⟩
  · rcases h'.flows k f'' hf'' with hfresh | ⟨f', hf', hstamp⟩
    · exact .inl hfresh
    · rw [hstamp]
      exact h.flows k f' hf'
  · rw [hnew', hnew, List.append_assoc]

/-- One flow is changed. -/
theorem setFlow {s s' : TcpReassembler} {key : FlowKey} {f' : TcpFlow}
    (hstamp : stamp f' = fresh ∨ ∃ f, s.flows.get? key = some f ∧ stamp f' = stamp f)
    (hc : s'.config = s.config) (hflows : s'.flows = s.flows.insert key f') {new : List Event}
    (he : s'.events = s.events ++ new) (hquiet : ∀ e ∈ new, isTimeout e = false) :
    Steady fresh s s' := by
  refine ⟨hc, fun k g hg => ?_, new, he, hquiet⟩
  rw [hflows] at hg
  by_cases hk : k = key
  · subst hk
    rw [SortedMap.get?_insert_self] at hg
    cases hg
    exact hstamp
  · rw [SortedMap.get?_insert_of_ne _ _ hk] at hg
    exact .inr ⟨g, hg, rfl⟩

end Steady

section Steps

variable {fresh : UInt32 × Nat}

theorem isTimeout_closeEvents {key : FlowKey} {f : TcpFlow} {reason : CloseReason}
    (hr : reason ≠ .timeout) (client server : List (Chunk UInt8)) :
    ∀ e ∈ closeEvents key f reason client server, isTimeout e = false := by
  refine List.forall_mem_append.mpr
    ⟨forall_drainEvents (fun _ _ _ _ => rfl) f client server, ?_⟩
  intro e he
  obtain rfl := List.mem_singleton.mp he
  cases reason with
  | timeout => exact absurd rfl hr
  | _ => rfl

theorem closeFlow_steady {s s' : TcpReassembler} {key : FlowKey} {reason : CloseReason}
    (hr : reason ≠ .timeout) (h : closeFlow s key reason = .ok s') : Steady fresh s s' := by
  obtain ⟨f, calls, hclosed⟩ := closeFlow_eq_ok h
  obtain ⟨client, server, rfl⟩ := closeAlone_eq_ok hclosed.handed
  refine ⟨hclosed.config, fun k g hg => ?_, _, hclosed.events,
    isTimeout_closeEvents hr client server⟩
  rw [hclosed.flows] at hg
  exact .inr ⟨g, (get?_of_erase hg).2, rfl⟩

theorem evictLoop_steady {target : Nat} (keys : List FlowKey) {s s' : TcpReassembler}
    (h : evictLoop target s keys = .ok s') : Steady fresh s s' := by
  induction keys generalizing s with
  | nil =>
    cases h
    exact .refl _
  | cons key keys ih =>
    rw [evictLoop] at h
    split at h
    · cases h
      exact .refl _
    · rw [bind_eq_ok] at h
      obtain ⟨s₁, hs₁, hrest⟩ := h
      have hcount : Steady fresh s { s with
        stats := { s.stats with evictions := bump s.stats.evictions } } :=
    .of_eq rfl rfl rfl
      exact (hcount.trans (closeFlow_steady (by simp) hs₁)).trans (ih hrest)

theorem evictFlows_steady {ord : IterOrder} {s s' : TcpReassembler} {trigger : EvictionTrigger}
    (h : evictFlows ord s trigger = .ok s') : Steady fresh s s' := by
  simp only [evictFlows, bind_eq_ok] at h
  obtain ⟨target, -, hloop⟩ := h
  have hcount : Steady fresh s { s with iterations := s.iterations + 1 } :=
    .of_eq rfl rfl rfl
  exact hcount.trans (evictLoop_steady _ hloop)

theorem enforceMemcap_steady {ord : IterOrder} {s s' : TcpReassembler}
    (h : enforceMemcap ord s = .ok s') : Steady fresh s s' := by
  unfold enforceMemcap at h
  split at h
  · exact evictFlows_steady h
  · cases h
    exact .refl _

theorem makeRoom_steady {ord : IterOrder} {s s' : TcpReassembler} {full : Bool}
    (h : makeRoom ord s = .ok (s', full)) : Steady fresh s s' := by
  unfold makeRoom at h
  split at h
  · rw [bind_eq_ok] at h
    obtain ⟨s₁, hs₁, heq⟩ := h
    cases heq
    exact evictFlows_steady hs₁
  · cases h
    exact .refl _

/-! ## The steps on the flow of a packet -/

theorem steady_pushFinding (s : TcpReassembler) (finding : Finding) :
    Steady fresh s (pushFinding s finding) := by
  unfold pushFinding
  split <;> exact .of_eq rfl rfl rfl

theorem steady_pushFindingIf (crossed : Bool) (s : TcpReassembler) (finding : Finding) :
    Steady fresh s (pushFindingIf crossed s finding) := by
  cases crossed with
  | false => exact .refl s
  | true => exact steady_pushFinding s finding

theorem steady_reportInsert (s : TcpReassembler) (key : FlowKey) (srcIp : IpAddr)
    (timestamp : UInt32) (bytesAdded : Nat) (result : InsertResult) :
    Steady fresh s (reportInsert s key srcIp timestamp bytesAdded result) := by
  cases result with
  | conflictingOverlap =>
    refine Steady.trans ?_ (steady_pushFinding _ _)
    exact .of_eq rfl rfl rfl
  | truncated =>
    refine Steady.trans ?_ (steady_pushFinding _ _)
    exact .of_eq rfl rfl rfl
  | segmentLimitReached =>
    simp only [reportInsert]
    split <;> exact .of_eq rfl rfl rfl
  | _ => exact .of_eq rfl rfl rfl

section Packet

variable {s s' : TcpReassembler} {packet : ParsedPacket} {key : FlowKey} {tcp : TcpFields}
  {timestamp : UInt32}

theorem applyHandshakeFlags_steady {post : PostHandshake}
    (h : applyHandshakeFlags s packet key tcp = .ok (s', post)) : Steady fresh s s' := by
  simp only [applyHandshakeFlags, bind_eq_ok] at h
  obtain ⟨f, hf, h⟩ := h
  have hf := unwrap_eq_ok hf
  split at h
  · rw [bind_eq_ok] at h
    obtain ⟨s₁, hclose, heq⟩ := h
    cases heq
    refine Steady.trans ?_ (closeFlow_steady (by simp) hclose)
    exact .setFlow (.inr ⟨f, hf, by simp⟩) rfl rfl (List.append_nil _).symm (by simp)
  · cases h
    exact .setFlow (.inr ⟨f, hf, by simp⟩) rfl rfl (List.append_nil _).symm (by simp)

theorem insertPayloadSegment_steady {dir : Direction}
    (h : insertPayloadSegment s packet key tcp timestamp = .ok (s', dir)) : Steady fresh s s' := by
  simp only [insertPayloadSegment, bind_eq_ok] at h
  obtain ⟨f, hf, ⟨d, result⟩, -, u, -, total, -, heq⟩ := h
  have hf := unwrap_eq_ok hf
  cases heq
  refine Steady.trans ?_ (steady_reportInsert _ _ _ _ _ _)
  refine .setFlow (.inr ⟨f, hf, ?_⟩) rfl rfl (List.append_nil _).symm (by simp)
  rw [stamp_setDir, stamp_joinFlow]

theorem checkAnomalyThresholds_steady {dir : Direction}
    (h : checkAnomalyThresholds s packet key dir timestamp = .ok s') : Steady fresh s s' := by
  simp only [checkAnomalyThresholds, bind_eq_ok] at h
  obtain ⟨f, hf, heq⟩ := h
  have hf := unwrap_eq_ok hf
  cases heq
  refine Steady.trans (Steady.trans (Steady.trans ?_ (steady_pushFindingIf _ _ _))
    (steady_pushFindingIf _ _ _)) (steady_pushFindingIf _ _ _)
  exact .setFlow (.inr ⟨f, hf, stamp_setDir f _ _⟩) rfl rfl (List.append_nil _).symm
    (by simp)

theorem flushContiguousData_steady {dir : Direction}
    (h : flushContiguousData s key dir timestamp = .ok s') : Steady fresh s s' := by
  simp only [flushContiguousData, bind_eq_ok] at h
  obtain ⟨f, hf, ⟨d, flushed⟩, -, freed, -, total, -, hdeliver⟩ := h
  have hf := unwrap_eq_ok hf
  obtain rfl := deliver_eq_ok hdeliver
  exact .setFlow (.inr ⟨f, hf, stamp_setDir f _ _⟩) rfl rfl rfl
    (forall_dataEvents (fun _ _ _ _ => rfl) _ _ flushed)

theorem processPayload_steady (h : processPayload s packet key tcp timestamp = .ok s') :
    Steady fresh s s' := by
  unfold processPayload at h
  split at h
  · cases h
    exact .refl _
  · rw [bind_eq_ok] at h
    obtain ⟨⟨s₁, dir⟩, hins, h⟩ := h
    simp only [bind_eq_ok] at h
    obtain ⟨s₂, hchk, hflush⟩ := h
    exact ((insertPayloadSegment_steady hins).trans (checkAnomalyThresholds_steady hchk)).trans
      (flushContiguousData_steady hflush)

theorem closeIfFinished_steady (h : closeIfFinished s key = .ok s') : Steady fresh s s' := by
  unfold closeIfFinished at h
  split at h
  · cases h
    exact .refl _
  · split at h
    · have hcount : Steady fresh s { s with
        stats := { s.stats with flowsFin := bump s.stats.flowsFin } } := .of_eq rfl rfl rfl
      exact hcount.trans (closeFlow_steady (by simp) h)
    · cases h
      exact .refl _

theorem processOnFlow_steady {ord : IterOrder}
    (h : processOnFlow ord s packet key tcp timestamp = .ok s') : Steady fresh s s' := by
  simp only [processOnFlow, bind_eq_ok] at h
  obtain ⟨⟨s₁, post⟩, hflags, h⟩ := h
  have hfirst : Steady fresh s s₁ := by
    refine Steady.trans ?_ (applyHandshakeFlags_steady hflags)
    exact ⟨rfl, fun k f hf => .inr ⟨f, hf, rfl⟩, _, rfl, by simp [isTimeout]⟩
  cases post with
  | flowClosed =>
    cases h
    exact hfirst
  | proceed =>
    simp only [bind_eq_ok] at h
    obtain ⟨s₂, hpay, s₃, hfin, hmem⟩ := h
    exact ((hfirst.trans (processPayload_steady hpay)).trans (closeIfFinished_steady hfin)).trans
      (enforceMemcap_steady hmem)

end Packet

theorem steady_extractTcpContext (s : TcpReassembler) (packet : ParsedPacket) :
    Steady fresh s (extractTcpContext s packet).1 := by
  unfold extractTcpContext
  split
  · exact .of_eq rfl rfl rfl
  · split <;> exact .refl s

/-- The flow of the packet is stamped. -/
theorem getOrCreateFlow_steady {ord : IterOrder} {s s' : TcpReassembler} {key : FlowKey}
    {timestamp : UInt32} {found : Bool} {index : Nat} (hindex : s.packetIndex = index)
    (h : getOrCreateFlow ord s key timestamp = .ok (s', found)) :
    Steady (timestamp, index) s s' := by
  subst hindex
  unfold getOrCreateFlow at h
  split at h
  · rw [bind_eq_ok] at h
    obtain ⟨⟨s₁, full⟩, hroom, h⟩ := h
    have hsteady : Steady (timestamp, s.packetIndex) s s₁ := makeRoom_steady hroom
    refine hsteady.trans ?_
    simp only at h
    split at h
    · cases h
      exact ⟨rfl, fun k f hf => .inr ⟨f, hf, rfl⟩, _, rfl, by simp [isTimeout]⟩
    · rw [touchFlow_eq (SortedMap.get?_insert_self _ _ _)] at h
      cases h
      refine .setFlow (.inl ?_) rfl (SortedMap.insert_insert _ _ _ _) rfl (by simp [isTimeout])
      have hclock : clock s₁ = clock s := makeRoom_keeps rfl ord _ hroom
      exact congrArg (Prod.mk timestamp) (congrArg Prod.fst hclock)
  · simp only [touchFlow, bind_eq_ok] at h
    obtain ⟨s₁, ⟨f, hf, heq⟩, h⟩ := h
    cases heq
    cases h
    exact .setFlow (.inl rfl) rfl rfl (List.append_nil _).symm (by simp)

end Steps

/-! ## Sweeps -/

/-- What a sweep does: the flows that `idle` selects are timed out. -/
structure Sweeps (idle : TcpFlow → Bool) (s s' : TcpReassembler) : Prop where
  config : s'.config = s.config
  flows : ∀ k f, s'.flows.get? k = some f → s.flows.get? k = some f ∧ idle f = false
  events : ∃ new, s'.events = s.events ++ new ∧ ∀ k, Event.onFlowClose k .timeout ∈ new →
    ∃ f, s.flows.get? k = some f ∧ idle f = true

/-- The loop of a sweep. -/
theorem expireLoop_sweeps (keys : List FlowKey) {s s' : TcpReassembler}
    (h : keys.foldlM (fun s key =>
      closeFlow { s with stats := { s.stats with flowsExpired := bump s.stats.flowsExpired } }
        key .timeout) s = .ok s') :
    s'.config = s.config ∧
      (∀ k f, s'.flows.get? k = some f → s.flows.get? k = some f ∧ k ∉ keys) ∧
      ∃ new, s'.events = s.events ++ new ∧
        ∀ k, Event.onFlowClose k .timeout ∈ new → k ∈ keys := by
  induction keys generalizing s with
  | nil =>
    cases h
    exact ⟨rfl, fun k f hf => ⟨hf, List.not_mem_nil⟩, [], (List.append_nil _).symm, by simp⟩
  | cons key keys ih =>
    rw [List.foldlM_cons, bind_eq_ok] at h
    obtain ⟨s₁, hs₁, hrest⟩ := h
    obtain ⟨f, calls, hclosed⟩ := closeFlow_eq_ok hs₁
    obtain ⟨client, server, rfl⟩ := closeAlone_eq_ok hclosed.handed
    obtain ⟨hc', hflows', new, hnew, htimeouts⟩ := ih hrest
    refine ⟨hc'.trans hclosed.config, fun k g hg => ?_,
      closeEvents key f .timeout client server ++ new, ?_, fun k hk => ?_⟩
    · obtain ⟨hg₁, hnot⟩ := hflows' k g hg
      rw [hclosed.flows] at hg₁
      obtain ⟨hne, hg₀⟩ := get?_of_erase hg₁
      exact ⟨hg₀, List.not_mem_cons_of_ne_of_not_mem hne hnot⟩
    · rw [hnew, hclosed.events, List.append_assoc]
    · rcases List.mem_append.mp hk with hk | hk
      · have hkey := eventKey_closeEvents key f .timeout client server _ hk
        exact List.mem_cons.mpr (.inl hkey)
      · exact List.mem_cons_of_mem _ (htimeouts k hk)

theorem expireWhere_sweeps {ord : IterOrder} {s s' : TcpReassembler} {idle : TcpFlow → Bool}
    (h : expireWhere ord s idle = .ok s') : Sweeps idle s s' := by
  unfold expireWhere at h
  obtain ⟨hc, hflows, new, hnew, htimeouts⟩ := expireLoop_sweeps _ h
  have hkeys : ∀ k, k ∈ ((ord.visit s.iterations s.flows.entries).filter
      fun e => idle e.2).map Prod.fst ↔ ∃ f, s.flows.get? k = some f ∧ idle f = true := by
    intro k
    simp only [List.mem_map, List.mem_filter, (ord.perm _ _).mem_iff,
      SortedMap.get?_eq_some_iff]
    constructor
    · rintro ⟨e, ⟨he, hidle⟩, rfl⟩
      exact ⟨e.2, he, hidle⟩
    · rintro ⟨f, hf, hidle⟩
      exact ⟨(k, f), ⟨hf, hidle⟩, rfl⟩
  refine ⟨hc, fun k f hf => ?_, new, hnew, fun k hk => (hkeys k).mp (htimeouts k hk)⟩
  obtain ⟨hf₀, hnot⟩ := hflows k f hf
  refine ⟨hf₀, Bool.eq_false_of_not_eq_true fun hidle => hnot ?_⟩
  exact (hkeys k).mpr ⟨f, hf₀, hidle⟩

/-- The flow has been seen within the timeout. -/
def Fresh (config : ReassemblyConfig) (now : UInt32) (f : TcpFlow) : Prop :=
  now.toNat - f.lastSeen.toNat ≤ config.flowTimeoutSecs.toNat

/-- The flow has had a packet within the threshold. -/
def Active (config : ReassemblyConfig) (packetIndex : Nat) (f : TcpFlow) : Prop :=
  packetIndex - f.lastActivityIndex ≤ config.idlePacketThreshold

theorem pastTimeout_eq_false {config : ReassemblyConfig} {now : UInt32} {f : TcpFlow} :
    pastTimeout config now f = false ↔ Fresh config now f := by
  unfold pastTimeout Fresh
  by_cases hlt : f.lastSeen < now
  · have hsub : (now - f.lastSeen).toNat = now.toNat - f.lastSeen.toNat :=
      UInt32.toNat_sub_of_le _ _ (UInt32.le_of_lt hlt)
    simp [hlt, UInt32.le_iff_toNat_le, hsub]
  · have hle := UInt32.le_iff_toNat_le.mp (UInt32.not_lt.mp hlt)
    simp [hlt]
    omega

theorem fresh_of_stamp {config : ReassemblyConfig} {now : UInt32} {f f' : TcpFlow}
    (h : stamp f' = stamp f) (hf : Fresh config now f) : Fresh config now f' := by
  unfold Fresh at hf ⊢
  rw [show f'.lastSeen = f.lastSeen from congrArg Prod.fst h]
  exact hf

theorem active_of_stamp {config : ReassemblyConfig} {index : Nat} {f f' : TcpFlow}
    (h : stamp f' = stamp f) (hf : Active config index f) : Active config index f' := by
  unfold Active at hf ⊢
  rw [show f'.lastActivityIndex = f.lastActivityIndex from congrArg Prod.snd h]
  exact hf

/-- What the two sweeps of a call leave and time out. -/
structure Swept (s s' : TcpReassembler) (now : UInt32) : Prop where
  config : s'.config = s.config
  packetIndex : s'.packetIndex = s.packetIndex + 1
  kept : ∀ k f, s'.flows.get? k = some f → s.flows.get? k = some f
  fresh : s.lastExpirySweepSecs < now → ∀ k f, s'.flows.get? k = some f → Fresh s.config now f
  active : s.config.expirySweepInterval ∣ s'.packetIndex →
    ∀ k f, s'.flows.get? k = some f → Active s.config s'.packetIndex f
  events : ∃ new, s'.events = s.events ++ new ∧ ∀ k, Event.onFlowClose k .timeout ∈ new →
    ∃ f, s.flows.get? k = some f ∧ ¬ (Fresh s.config now f ∧ Active s.config s'.packetIndex f)

theorem sweepByTimestamp_eq_ok {ord : IterOrder} {s s' : TcpReassembler} {now : UInt32}
    (h : sweepByTimestamp ord s now = .ok s') :
    s'.config = s.config ∧
      (∀ k f, s'.flows.get? k = some f → s.flows.get? k = some f ∧
        (s.lastExpirySweepSecs < now → Fresh s.config now f)) ∧
      ∃ new, s'.events = s.events ++ new ∧ ∀ k, Event.onFlowClose k .timeout ∈ new →
        ∃ f, s.flows.get? k = some f ∧ ¬ Fresh s.config now f := by
  unfold sweepByTimestamp at h
  by_cases hlt : now > s.lastExpirySweepSecs
  · rw [if_pos hlt] at h
    have hsweeps := expireWhere_sweeps h
    obtain ⟨new, hnew, htimeouts⟩ := hsweeps.events
    refine ⟨hsweeps.config, fun k f hf => ?_, new, hnew, fun k hk => ?_⟩
    · obtain ⟨hf₀, hidle⟩ := hsweeps.flows k f hf
      exact ⟨hf₀, fun _ => pastTimeout_eq_false.mp hidle⟩
    · obtain ⟨f, hf, hidle⟩ := htimeouts k hk
      refine ⟨f, hf, fun hfresh => ?_⟩
      have hfalse : pastTimeout s.config now f = false := pastTimeout_eq_false.mpr hfresh
      rw [hfalse] at hidle
      cases hidle
  · rw [if_neg hlt] at h
    cases h
    exact ⟨rfl, fun k f hf => ⟨hf, fun hlt' => absurd hlt' hlt⟩, [], (List.append_nil _).symm,
      by simp⟩

theorem sweepByPacketIndex_eq_ok {ord : IterOrder} {s s' : TcpReassembler}
    (h : sweepByPacketIndex ord s = .ok s') :
    s'.config = s.config ∧
      (∀ k f, s'.flows.get? k = some f → s.flows.get? k = some f ∧
        (s.config.expirySweepInterval ∣ s.packetIndex → Active s.config s.packetIndex f)) ∧
      ∃ new, s'.events = s.events ++ new ∧ ∀ k, Event.onFlowClose k .timeout ∈ new →
        ∃ f, s.flows.get? k = some f ∧ ¬ Active s.config s.packetIndex f := by
  unfold sweepByPacketIndex at h
  by_cases hdvd : s.packetIndex % s.config.expirySweepInterval = 0
  · rw [if_pos hdvd] at h
    have hsweeps := expireWhere_sweeps h
    obtain ⟨new, hnew, htimeouts⟩ := hsweeps.events
    refine ⟨hsweeps.config, fun k f hf => ?_, new, hnew, fun k hk => ?_⟩
    · obtain ⟨hf₀, hidle⟩ := hsweeps.flows k f hf
      exact ⟨hf₀, fun _ => Nat.le_of_not_lt (of_decide_eq_false hidle)⟩
    · obtain ⟨f, hf, hidle⟩ := htimeouts k hk
      exact ⟨f, hf, Nat.not_le_of_lt (of_decide_eq_true hidle)⟩
  · rw [if_neg hdvd] at h
    cases h
    exact ⟨rfl, fun k f hf => ⟨hf, fun h => absurd (Nat.mod_eq_zero_of_dvd h) hdvd⟩, [],
      (List.append_nil _).symm, by simp⟩

theorem sweeps_eq_ok {ord : IterOrder} {s s₁ s' : TcpReassembler} {now : UInt32} {index : Nat}
    (hindex : checkedInc 64 s.packetIndex = .ok index)
    (h : sweepByTimestamp ord { s with
      stats := { s.stats with packetsProcessed := bump s.stats.packetsProcessed }
      packetIndex := index } now = .ok s₁)
    (h' : sweepByPacketIndex ord s₁ = .ok s') : Swept s s' now := by
  obtain ⟨hc, hflows, new, hnew, htimeouts⟩ := sweepByTimestamp_eq_ok h
  obtain ⟨hc', hflows', new', hnew', htimeouts'⟩ := sweepByPacketIndex_eq_ok h'
  have hp : s₁.packetIndex = s.packetIndex + 1 :=
    (congrArg Prod.fst (sweepByTimestamp_clock h)).trans (checkedInc_eq_ok hindex)
  have hp' : s'.packetIndex = s.packetIndex + 1 :=
    (congrArg Prod.fst (sweepByPacketIndex_keeps rfl ord s' h')).trans hp
  rw [hc, hp] at hflows' htimeouts'
  refine ⟨hc'.trans hc, hp', fun k f hf => (hflows k f (hflows' k f hf).1).1,
    fun hlt k f hf => (hflows k f (hflows' k f hf).1).2 hlt, fun hdvd k f hf => ?_,
    new ++ new', ?_, fun k hk => ?_⟩
  · rw [hp'] at hdvd ⊢
    exact (hflows' k f hf).2 hdvd
  · rw [hnew', hnew, List.append_assoc]
  · rw [hp']
    rcases List.mem_append.mp hk with hk | hk
    · obtain ⟨f, hf, hnot⟩ := htimeouts k hk
      exact ⟨f, hf, fun hboth => hnot hboth.1⟩
    · obtain ⟨f, hf, hnot⟩ := htimeouts' k hk
      exact ⟨f, (hflows k f hf).1, fun hboth => hnot hboth.2⟩

/-! ## Calls -/

/-- A call sweeps, and then stamps at most one flow. -/
theorem receive_sweeps {ord : IterOrder} {s s' : TcpReassembler} {i : Input}
    (h : receive ord s i = .ok s') :
    ∃ s₁, Swept s s₁ i.2 ∧ Steady (i.2, s₁.packetIndex) s₁ s' := by
  simp only [receive, processPacket, bind_eq_ok] at h
  obtain ⟨index, hindex, s₁, hs₁, s₂, hs₂, h⟩ := h
  refine ⟨s₂, sweeps_eq_ok hindex hs₁ hs₂, ?_⟩
  have hctx : Steady (i.2, s₂.packetIndex) s₂ (extractTcpContext s₂ i.1).1 :=
    steady_extractTcpContext s₂ i.1
  have hclock : clock (extractTcpContext s₂ i.1).1 = clock s₂ := clock_extractTcpContext rfl i.1
  revert h hctx hclock
  obtain ⟨s₃, ctx⟩ := extractTcpContext s₂ i.1
  intro h hctx hclock
  cases ctx with
  | none =>
    cases h
    exact hctx
  | some kt =>
    obtain ⟨key, tcp⟩ := kt
    simp only [bind_eq_ok] at h
    obtain ⟨⟨s₄, found⟩, hget, h⟩ := h
    have hcount : Steady (i.2, s₂.packetIndex) s₃ { s₃ with
      stats := { s₃.stats with packetsTcp := bump s₃.stats.packetsTcp } } :=
        .of_eq rfl rfl rfl
    have hindex : s₃.packetIndex = s₂.packetIndex := congrArg Prod.fst hclock
    have hgreet : Steady (i.2, s₂.packetIndex) _ s₄ :=
      getOrCreateFlow_steady (by exact hindex) hget
    have hfound := (hctx.trans hcount).trans hgreet
    cases found with
    | false =>
      cases h
      exact hfound
    | true => exact hfound.trans (processOnFlow_steady h)

/-- A flow has a stamp that the sweeps of the call have let pass, or that of the call. -/
theorem receive_flow {ord : IterOrder} {s s' : TcpReassembler} {i : Input}
    (h : receive ord s i = .ok s') :
    s'.config = s.config ∧ s'.packetIndex = s.packetIndex + 1 ∧
      s'.lastExpirySweepSecs = (if i.2 > s.lastExpirySweepSecs then i.2
        else s.lastExpirySweepSecs) ∧
      ∀ k f', s'.flows.get? k = some f' → stamp f' = (i.2, s'.packetIndex) ∨
        ∃ f, s.flows.get? k = some f ∧ stamp f' = stamp f ∧
          (s.lastExpirySweepSecs < i.2 → Fresh s.config i.2 f) ∧
          (s.config.expirySweepInterval ∣ s'.packetIndex →
            Active s.config s'.packetIndex f) := by
  obtain ⟨s₁, hswept, hsteady⟩ := receive_sweeps h
  have hclock := processPacket_clock h
  have hp : s'.packetIndex = s₁.packetIndex :=
    (congrArg Prod.fst hclock).trans hswept.packetIndex.symm
  refine ⟨hsteady.config.trans hswept.config, congrArg Prod.fst hclock, congrArg Prod.snd hclock,
    fun k f' hf' => ?_⟩
  rw [hp]
  rcases hsteady.flows k f' hf' with hstamp | ⟨f, hf, hstamp⟩
  · exact .inl hstamp
  · exact .inr ⟨f, hswept.kept k f hf, hstamp, fun hlt => hswept.fresh hlt k f hf,
      fun hdvd => hswept.active hdvd k f hf⟩

/-- Only a flow that is idle by one of the two clocks is timed out. -/
theorem receive_timeouts {ord : IterOrder} {s s' : TcpReassembler} {i : Input}
    (h : receive ord s i = .ok s') :
    ∃ new, s'.events = s.events ++ new ∧ ∀ k, Event.onFlowClose k .timeout ∈ new →
      ∃ f, s.flows.get? k = some f ∧
        ¬ (Fresh s.config i.2 f ∧ Active s.config s'.packetIndex f) := by
  obtain ⟨s₁, hswept, hsteady⟩ := receive_sweeps h
  obtain ⟨new, hnew, htimeouts⟩ := hswept.events
  obtain ⟨new', hnew', hquiet⟩ := hsteady.events
  refine ⟨new ++ new', ?_, fun k hk => ?_⟩
  · rw [hnew', hnew, List.append_assoc]
  · rw [show s'.packetIndex = s₁.packetIndex from
      (congrArg Prod.fst (processPacket_clock h)).trans hswept.packetIndex.symm]
    rcases List.mem_append.mp hk with hk | hk
    · exact htimeouts k hk
    · cases hquiet _ hk

/-- The last sweep was at `now`, and since then no flow has been idle for longer than allowed. -/
structure Watched (now : UInt32) (s : TcpReassembler) : Prop where
  lastSweep : s.lastExpirySweepSecs = now
  seen : ∀ k f, s.flows.get? k = some f → f.lastSeen ≤ now
  fresh : ∀ k f, s.flows.get? k = some f → Fresh s.config now f

theorem Watched.receive {ord : IterOrder} {now : UInt32} {s s' : TcpReassembler} {i : Input}
    (hw : Watched now s) (hle : now ≤ i.2) (h : receive ord s i = .ok s') : Watched i.2 s' := by
  obtain ⟨hc, -, hl, hflows⟩ := receive_flow h
  rw [hw.lastSweep] at hl hflows
  refine ⟨?_, fun k f' hf' => ?_, fun k f' hf' => ?_⟩
  · rw [hl]
    split
    · rfl
    · rename_i hnot
      exact UInt32.le_antisymm hle (UInt32.not_lt.mp hnot)
  · rcases hflows k f' hf' with hstamp | ⟨f, hf, hstamp, -, -⟩
    · exact UInt32.le_of_eq (congrArg Prod.fst hstamp)
    · rw [show f'.lastSeen = f.lastSeen from congrArg Prod.fst hstamp]
      exact UInt32.le_trans (hw.seen k f hf) hle
  · rw [hc]
    rcases hflows k f' hf' with hstamp | ⟨f, hf, hstamp, hfresh, -⟩
    · rw [Fresh, show f'.lastSeen = i.2 from congrArg Prod.fst hstamp, Nat.sub_self]
      exact Nat.zero_le _
    · apply fresh_of_stamp hstamp
      by_cases hlt : now < i.2
      · exact hfresh hlt
      · rw [← UInt32.le_antisymm hle (UInt32.not_lt.mp hlt)]
        exact hw.fresh k f hf

/-! ## Captures -/

/-- The time of the last packet, zero before the first. -/
def lastTime (inputs : List Input) : UInt32 := (inputs.getLast?.map Prod.snd).getD 0

theorem run_watched (ord : IterOrder) {config : ReassemblyConfig} {s₀ : TcpReassembler}
    (hnew : TcpReassembler.new config = .ok s₀) (inputs : List Input)
    (hmono : (inputs.map Prod.snd).Pairwise (· ≤ ·)) {s : TcpReassembler}
    (hrun : run (receive ord) s₀ inputs = .ok s) : Watched (lastTime inputs) s := by
  induction inputs using List.reverseRecOn generalizing s with
  | nil =>
    cases hrun
    obtain ⟨-, hview⟩ := new_eq_ok hnew
    have hflows : s₀.flows = .empty := congrArg View.flows hview
    refine ⟨congrArg Prod.snd (new_clock hnew), fun k f hf => ?_, fun k f hf => ?_⟩
    · rw [hflows, SortedMap.get?_empty] at hf
      cases hf
    · rw [hflows, SortedMap.get?_empty] at hf
      cases hf
  | append_singleton inputs i ih =>
    rw [run_snoc, bind_eq_ok] at hrun
    obtain ⟨s₁, hs₁, hlast⟩ := hrun
    rw [List.map_append, List.pairwise_append] at hmono
    obtain ⟨hmono₁, -, hle⟩ := hmono
    have hnow : lastTime inputs ≤ i.2 := by
      unfold lastTime
      cases hend : inputs.getLast? with
      | none => exact UInt32.zero_le
      | some j => exact hle j.2 (List.mem_map_of_mem (List.mem_of_getLast? hend)) i.2 (by simp)
    have hw := (ih hmono₁ hs₁).receive hnow hlast
    simpa [lastTime] using hw

/-- After a packet of a capture in which time never runs backwards, no flow has been silent for
longer than the timeout. After every `expiry_sweep_interval` packets, no flow has been silent for
more packets than the threshold, whatever the timestamps are. A packet times out no flow that is
within both bounds. -/
theorem run_expires (ord : IterOrder) (config : ReassemblyConfig) (s₀ : TcpReassembler)
    (hnew : TcpReassembler.new config = .ok s₀) (inputs : List Input) (i : Input) :
    ReturnsIf (Lasting config (inputs.map arrival)) (run (receive ord) s₀ inputs) (fun s =>
      ReturnsIf (Lasting config ((inputs ++ [i]).map arrival)) (receive ord s i) (fun s' =>
        s'.packetIndex = inputs.length + 1 ∧
        (((inputs ++ [i]).map Prod.snd).Pairwise (· ≤ ·) → ∀ k f, s'.flows.get? k = some f →
          f.lastSeen ≤ i.2 ∧ Fresh config i.2 f) ∧
        (config.expirySweepInterval ∣ s'.packetIndex → ∀ k f, s'.flows.get? k = some f →
          Active config s'.packetIndex f) ∧
        ∃ new, s'.events = s.events ++ new ∧ ∀ k, Event.onFlowClose k .timeout ∈ new →
          ∃ f, s.flows.get? k = some f ∧
            ¬ (Fresh config i.2 f ∧ Active config s'.packetIndex f))) := by
  have hcounted := receive_run_counted ord hnew inputs
  refine ⟨hcounted.1, fun s hs => ?_⟩
  have hnext := receive_counted ord (hcounted.2 s hs) i
  refine ⟨hnext.1, fun s' hs' => ?_⟩
  have hcfg : s.config = config := (hcounted.2 s hs).config
  obtain ⟨hc, -, -, hflows⟩ := receive_flow hs'
  rw [hcfg] at hc hflows
  refine ⟨?_, fun hmono k f hf => ?_, fun hdvd k f' hf' => ?_, ?_⟩
  · rw [(hnext.2 s' hs').packets, packets_arrivals, List.length_append, List.length_singleton]
  · have hrun : run (receive ord) s₀ (inputs ++ [i]) = .ok s' := by
      rw [run_snoc, hs]
      exact hs'
    have hw := run_watched ord hnew (inputs ++ [i]) hmono hrun
    have hlast : lastTime (inputs ++ [i]) = i.2 := by simp [lastTime]
    rw [hlast] at hw
    exact ⟨hw.seen k f hf, hc ▸ hw.fresh k f hf⟩
  · rcases hflows k f' hf' with hstamp | ⟨f, -, hstamp, -, hactive⟩
    · rw [Active, show f'.lastActivityIndex = s'.packetIndex from congrArg Prod.snd hstamp,
        Nat.sub_self]
      exact Nat.zero_le _
    · exact active_of_stamp hstamp (hactive hdvd)
  · rw [← hcfg]
    exact receive_timeouts hs'

/-- A flow that has been silent for 400 seconds is gone after the next packet, which is not one
of its own. -/
theorem run_expires_silent : ∃ s₀ s s', TcpReassembler.new .default = .ok s₀ ∧
    run (receive keyOrder) s₀ [segmentOf left right 7 true []] = .ok s ∧
    receive keyOrder s ((segmentOf left (.v4 3, 90) 5 true []).1, 401) = .ok s' ∧
    (s.flows.get? sampleKey).isSome = true ∧ s'.flows.get? sampleKey = none ∧
    s'.packetIndex = 2 ∧ ∀ k f, s'.flows.get? k = some f → Fresh .default 401 f := by
  obtain ⟨s₀, hnew⟩ : ∃ s₀, TcpReassembler.new .default = .ok s₀ := ⟨_, rfl⟩
  have hexp := run_expires keyOrder .default s₀ hnew [segmentOf left right 7 true []]
    ((segmentOf left (.v4 3, 90) 5 true []).1, 401)
  cases hnew
  have hlast := (hexp.2 _ rfl).2 _ rfl
  exact ⟨_, _, _, rfl, rfl, rfl, by decide, by decide, hlast.1,
    fun k f hf => (hlast.2.1 (by decide) k f hf).2⟩

end Wirerust.Expiry
