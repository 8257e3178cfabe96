import Wirerust.Reassembly.Alone

/-!
Which flows `evict_flows` closes.

* `evictLoop_eq_ok`: the loop closes a first part of its candidates, and before each close one of
  the two limits was exceeded.
* `evict_victims`: in every reachable state the flows closed come before all those that stay, in
  the order of the victims, and there are no more of them than the limits ask for.
-/

namespace Wirerust.Eviction

open Lib Wirerust.Segment Wirerust.Flow Wirerust.Engine Wirerust.Moves Wirerust.Retiring
  Wirerust.EngineSpec Wirerust.Alone

/-! ## The loop -/

/-- One round of the loop. -/
def evictOne (s : TcpReassembler) (key : FlowKey) : Checked TcpReassembler :=
  closeFlow { s with stats := { s.stats with evictions := bump s.stats.evictions } } key
    .memoryPressure

/-- Both limits are met. -/
def WithinLimits (target : Nat) (s : TcpReassembler) : Prop :=
  s.totalMemory ≤ s.config.memcap ∧ s.flows.size ≤ target

theorem evictLoop_eq_ok {target : Nat} (keys : List FlowKey) {s s' : TcpReassembler}
    (h : evictLoop target s keys = .ok s') :
    ∃ victims rest, keys = victims ++ rest ∧ run evictOne s victims = .ok s' ∧
      ∀ pre key t, (pre ++ [key]) <+: victims → run evictOne s pre = .ok t →
        ¬ WithinLimits target t := by
  induction keys generalizing s with
  | nil =>
    cases h
    refine ⟨[], [], rfl, rfl, fun pre key t hpre _ => ?_⟩
    have := List.prefix_nil.mp hpre
    simp at this
  | cons key keys ih =>
    rw [evictLoop] at h
    by_cases hdone : s.totalMemory ≤ s.config.memcap ∧ s.flows.size ≤ target
    · rw [if_pos hdone] at h
      cases h
      refine ⟨[], key :: keys, rfl, rfl, fun pre key t hpre _ => ?_⟩
      have := List.prefix_nil.mp hpre
      simp at this
    · rw [if_neg hdone, bind_eq_ok] at h
      obtain ⟨s₁, hs₁, hrest⟩ := h
      obtain ⟨victims, rest, rfl, hrun, hover⟩ := ih hrest
      have hfirst : evictOne s key = .ok s₁ := hs₁
      refine ⟨key :: victims, rest, rfl, ?_, fun pre k t hpre ht => ?_⟩
      · rw [run_cons, hfirst]
        exact hrun
      · cases pre with
        | nil =>
          cases ht
          exact hdone
        | cons k' pre =>
          obtain ⟨rfl, hpre'⟩ := List.cons_prefix_cons.mp hpre
          rw [run_cons, hfirst] at ht
          exact hover pre k t hpre' ht

/-- The flows of the victims are gone, and all others are as they were. -/
theorem run_evictOne_flows (victims : List FlowKey) {s s' : TcpReassembler}
    (h : run evictOne s victims = .ok s') (k : FlowKey) (f : TcpFlow) :
    s'.flows.get? k = some f ↔ s.flows.get? k = some f ∧ k ∉ victims := by
  induction victims generalizing s with
  | nil =>
    cases h
    simp
  | cons key victims ih =>
    rw [run_cons, bind_eq_ok] at h
    obtain ⟨s₁, hs₁, hrest⟩ := h
    obtain ⟨g, calls, hclosed⟩ := closeFlow_eq_ok hs₁
    have hflows : s₁.flows = s.flows.erase key := hclosed.flows
    rw [ih hrest, hflows, List.mem_cons, not_or]
    by_cases hk : k = key
    · subst hk
      rw [SortedMap.get?_erase_self]
      simp
    · rw [SortedMap.get?_erase_of_ne _ hk]
      simp [hk]

/-! ## The order of the victims -/

/-- Non-established flows come first, then those seen least recently. -/
def Precedes (f g : TcpFlow) : Prop :=
  (f.state ≠ .established ∧ g.state = .established) ∨
    ((f.state = .established ↔ g.state = .established) ∧ f.lastSeen < g.lastSeen)

theorem victimLe_total (a b : FlowKey × TcpFlow) : victimLe a b ∨ victimLe b a := by
  unfold victimLe
  cases isEstablished a.2 <;> cases isEstablished b.2 <;> simp [UInt32.le_total]

theorem victimLe_trans {a b c : FlowKey × TcpFlow} (h : victimLe a b) (h' : victimLe b c) :
    victimLe a c := by
  rcases h with ⟨ha, hb⟩ | ⟨hab, hle⟩
  · rcases h' with ⟨hb', -⟩ | ⟨hbc, -⟩
    · rw [hb] at hb'
      cases hb'
    · exact .inl ⟨ha, hbc ▸ hb⟩
  · rcases h' with ⟨hb, hc⟩ | ⟨hbc, hle'⟩
    · exact .inl ⟨hab.trans hb, hc⟩
    · exact .inr ⟨hab.trans hbc, UInt32.le_trans hle hle'⟩

theorem not_precedes_of_victimLe {a b : FlowKey × TcpFlow} (h : victimLe a b) :
    ¬ Precedes b.2 a.2 := by
  unfold victimLe isEstablished at h
  rintro (⟨hb, ha⟩ | ⟨hab, hlt⟩)
  · rcases h with ⟨ha', -⟩ | ⟨heq, -⟩
    · simp [ha] at ha'
    · rw [ha, beq_self_eq_true] at heq
      exact hb (beq_iff_eq.mp heq.symm)
  · rcases h with ⟨ha, hb⟩ | ⟨-, hle⟩
    · rw [hab.mp (beq_iff_eq.mp hb), beq_self_eq_true] at ha
      cases ha
    · exact UInt32.not_le.mpr hlt hle

/-- The candidates, in the order in which they are closed. -/
theorem pairwise_candidates (l : List (FlowKey × TcpFlow)) :
    (l.insertionSort victimLe).Pairwise victimLe := by
  have htotal : Std.Total victimLe := ⟨victimLe_total⟩
  have htrans : IsTrans _ victimLe := ⟨fun _ _ _ => victimLe_trans⟩
  exact List.pairwise_insertionSort victimLe l

/-- If the first candidates are closed, none that stays comes before one of them. -/
theorem not_precedes_victim {flows : SortedMap FlowKey TcpFlow}
    {candidates : List (FlowKey × TcpFlow)} (hsorted : candidates.Pairwise victimLe)
    (hperm : candidates.Perm flows.entries) {victims rest : List FlowKey}
    (hkeys : candidates.map Prod.fst = victims ++ rest) {k k' : FlowKey} {f f' : TcpFlow}
    (hf : flows.get? k = some f) (hk : k ∉ victims) (hf' : flows.get? k' = some f')
    (hk' : k' ∈ victims) : ¬ Precedes f f' := by
  obtain ⟨first, last, rfl, rfl, -⟩ := List.map_eq_append_iff.mp hkeys
  have hmem : (k, f) ∈ first ++ last :=
    hperm.mem_iff.mpr ((SortedMap.get?_eq_some_iff _ _ _).mp hf)
  have hlast : (k, f) ∈ last := by
    rcases List.mem_append.mp hmem with h | h
    · exact absurd (List.mem_map_of_mem h) hk
    · exact h
  obtain ⟨e, he, rfl⟩ := List.mem_map.mp hk'
  have hget : flows.get? e.1 = some e.2 :=
    (SortedMap.get?_eq_some_iff _ _ _).mpr (hperm.mem_iff.mp (List.mem_append_left last he))
  rw [hget] at hf'
  cases hf'
  exact not_precedes_of_victimLe ((List.pairwise_append.mp hsorted).2.2 e he (k, f) hlast)

/-! ## Evictions -/

/-- What a call of `evict_flows` has done: it has closed the flows of `victims`. -/
structure Evicted (s s' : TcpReassembler) (target : Nat) (victims : List FlowKey) : Prop where
  nodup : victims.Nodup
  closes : run evictOne { s with iterations := s.iterations + 1 } victims = .ok s'
  stays : ∀ k f, s'.flows.get? k = some f ↔ s.flows.get? k = some f ∧ k ∉ victims
  order : ∀ k f k' f', s'.flows.get? k = some f → k' ∈ victims → s.flows.get? k' = some f' →
    ¬ Precedes f f'
  limits : WithinLimits target s'
  needed : ∀ pre key t, (pre ++ [key]) <+: victims →
    run evictOne { s with iterations := s.iterations + 1 } pre = .ok t → ¬ WithinLimits target t

theorem flowCountTarget_some (config : ReassemblyConfig) (trigger : EvictionTrigger)
    (h : trigger = .maxFlows → Fits config) :
    ∃ target, flowCountTarget config trigger = .ok target := by
  cases trigger with
  | memCap => exact ⟨_, rfl⟩
  | maxFlows =>
    have hfits : config.maxFlows * 9 < 2 ^ 64 := h rfl
    exact ⟨min (config.maxFlows * 9 / 10) (config.maxFlows - 1), by
      rw [flowCountTarget, checkedMul, if_pos hfits]
      rfl⟩

theorem evictFlows_evicted (ord : IterOrder) {s : TcpReassembler} (hwf : EngineWf (view s))
    (trigger : EvictionTrigger) :
    ReturnsIf (trigger = .maxFlows → Fits s.config) (evictFlows ord s trigger) (fun s' =>
      ∃ target victims, flowCountTarget s.config trigger = .ok target ∧
        Evicted s s' target victims) := by
  have hsorted := pairwise_candidates (ord.visit s.iterations s.flows.entries)
  have hperm := ((ord.visit s.iterations s.flows.entries).perm_insertionSort victimLe).trans
    (ord.perm s.iterations s.flows.entries)
  have hnodup := (hperm.map Prod.fst).nodup_iff.mpr (nodup_keys s.flows)
  have hloop : ∀ target, Returns (evictLoop target { s with iterations := s.iterations + 1 }
      (((ord.visit s.iterations s.flows.entries).insertionSort victimLe).map Prod.fst))
      (fun s' => WithinLimits target s') := by
    intro target
    refine (evictLoop_returns target _ hnodup { s with iterations := s.iterations + 1 } hwf
      fun k => ?_).mono fun s' hs' => hs'.2
    rw [(hperm.map Prod.fst).mem_iff]
    refine ⟨fun h => ?_, isSome_of_mem_keys⟩
    obtain ⟨f, hf⟩ := Option.isSome_iff_exists.mp h
    exact List.mem_map.mpr ⟨(k, f), (SortedMap.get?_eq_some_iff _ _ _).mp hf, rfl⟩
  refine ⟨fun hfits => ?_, fun s' h => ?_⟩
  · obtain ⟨target, htarget⟩ := flowCountTarget_some s.config trigger hfits
    obtain ⟨s', hs', -⟩ := hloop target
    refine ⟨s', ?_⟩
    simp only [evictFlows, htarget, ok_bind]
    exact hs'
  · simp only [evictFlows, bind_eq_ok] at h
    obtain ⟨target, htarget, h⟩ := h
    obtain ⟨victims, rest, hkeys, hrun, hover⟩ := evictLoop_eq_ok _ h
    have hstays := run_evictOne_flows victims hrun
    refine ⟨target, victims, htarget, ?_, hrun, hstays, fun k f k' f' hf hk' hf' => ?_,
      (hloop target).apply h, hover⟩
    · rw [hkeys] at hnodup
      exact (List.nodup_append.mp hnodup).1
    · obtain ⟨hf₀, hk⟩ := (hstays k f).mp hf
      exact not_precedes_victim hsorted hperm hkeys hf₀ hk hf' hk'

/-! ## Reachable states -/

/-- The states between two calls. -/
inductive Settled (ord : IterOrder) (config : ReassemblyConfig) : TcpReassembler → Prop
  | new (s : TcpReassembler) (h : TcpReassembler.new config = .ok s) : Settled ord config s
  | call (s s' : TcpReassembler) (call : Call) (h : Settled ord config s)
      (hs' : step ord s call = .ok s') : Settled ord config s'
  | finalize (s s' : TcpReassembler) (h : Settled ord config s)
      (hs' : finalize ord s = .ok s') : Settled ord config s'

/-- The states between two calls, and those in which `process_packet` evicts: before a flow is
created, and at the end of a packet. -/
inductive Reachable (ord : IterOrder) (config : ReassemblyConfig) : TcpReassembler → Prop
  | between (s : TcpReassembler) (h : Settled ord config s) : Reachable ord config s
  | arriving (s s₁ s₂ s₃ : TcpReassembler) (packet : ParsedPacket) (timestamp : UInt32)
      (packetIndex : Nat) (key : FlowKey) (tcp : TcpFields) (h : Settled ord config s)
      (h₀ : checkedInc 64 s.packetIndex = .ok packetIndex)
      (h₁ : sweepByTimestamp ord { s with
        stats := { s.stats with packetsProcessed := bump s.stats.packetsProcessed }
        packetIndex } timestamp = .ok s₁)
      (h₂ : sweepByPacketIndex ord s₁ = .ok s₂)
      (h₃ : extractTcpContext s₂ packet = (s₃, some (key, tcp))) :
      Reachable ord config { s₃ with
        stats := { s₃.stats with packetsTcp := bump s₃.stats.packetsTcp } }
  | finishing (s s₁ s₂ s₃ s₄ : TcpReassembler) (packet : ParsedPacket) (timestamp : UInt32)
      (key : FlowKey) (tcp : TcpFields) (h : Settled ord config s)
      (h₁ : arrive ord s packet timestamp = .ok (s₁, some (key, tcp)))
      (h₂ : applyHandshakeFlags { s₁ with events := s₁.events ++ [.packet key
        (packet.srcIp, tcp.srcPort) (packet.dstIp, tcp.dstPort) tcp packet.payload] }
        packet key tcp = .ok (s₂, .proceed))
      (h₃ : processPayload s₂ packet key tcp timestamp = .ok s₃)
      (h₄ : closeIfFinished s₃ key = .ok s₄) : Reachable ord config s₄

theorem Settled.ready {ord : IterOrder} {config : ReassemblyConfig} {s : TcpReassembler}
    (h : Settled ord config s) : Ready (view s) ∧ s.config = config := by
  induction h with
  | new s h => exact ready_new h
  | call s s' call h hs' ih =>
    obtain ⟨hr, hcfg⟩ := ih
    obtain ⟨hpath, hr'⟩ := step_moves hr hs'
    exact ⟨hr', (path_config hpath).trans hcfg⟩
  | finalize s s' h hs' ih =>
    obtain ⟨hr, hcfg⟩ := ih
    obtain ⟨hr', hcfg'⟩ := (finalize_ready ord hr).apply hs'
    exact ⟨hr', hcfg'.trans hcfg⟩

/-- The state before a flow is created, or found in the table. -/
theorem arriving_ready {ord : IterOrder} {s s₁ s₂ s₃ : TcpReassembler} {packet : ParsedPacket}
    {timestamp : UInt32} {packetIndex : Nat} (hr : Ready (view s))
    (h₁ : sweepByTimestamp ord { s with
      stats := { s.stats with packetsProcessed := bump s.stats.packetsProcessed }
      packetIndex } timestamp = .ok s₁)
    (h₂ : sweepByPacketIndex ord s₁ = .ok s₂) (h₃ : (extractTcpContext s₂ packet).1 = s₃) :
    Ready (view s₃) ∧ s₃.config = s.config := by
  have hret₁ := (sweepByTimestamp_returns ord (s := { s with
    stats := { s.stats with packetsProcessed := bump s.stats.packetsProcessed }
    packetIndex }) hr.wf timestamp).apply h₁
  have hr₁ : Ready (view s₁) := hr.retires hret₁
  have hret₂ := (sweepByPacketIndex_returns ord hr₁.wf).apply h₂
  have hr₂ := hr₁.retires hret₂
  obtain ⟨s₄, hview, -, heq⟩ := extractTcpContext_eq s₂ packet
  rw [heq] at h₃
  cases h₃
  refine ⟨?_, (congrArg View.config hview).trans ?_⟩
  · rw [hview]
    exact hr₂
  · exact (Retires.shrinks hret₂).config.trans (Retires.shrinks hret₁).config

theorem arrive_ready {ord : IterOrder} {s s' : TcpReassembler} {packet : ParsedPacket}
    {timestamp : UInt32} {key : FlowKey} {tcp : TcpFields} (hr : Ready (view s))
    (h : arrive ord s packet timestamp = .ok (s', some (key, tcp))) :
    Ready (view s') ∧ s'.config = s.config := by
  refine ⟨?_, (arrive_eq_ok hr h).2.1⟩
  simp only [arrive, bind_eq_ok] at h
  obtain ⟨index, -, s₁, h₁, s₂, h₂, h⟩ := h
  have hr₃ : Ready (view (extractTcpContext s₂ packet).1) := (arriving_ready hr h₁ h₂ rfl).1
  revert h hr₃
  obtain ⟨s₃, ctx⟩ := extractTcpContext s₂ packet
  intro h hr₃
  cases ctx with
  | none => cases h
  | some kt =>
    simp only [bind_eq_ok] at h
    obtain ⟨⟨s₄, found⟩, hget, heq⟩ := h
    obtain ⟨-, -, hr₄, -⟩ := (getOrCreateFlow_returns ord (s := { s₃ with stats := { s₃.stats with
      packetsTcp := bump s₃.stats.packetsTcp } }) hr₃ kt.1 timestamp).2 _ hget
    rw [← (Prod.mk.inj (Except.ok.inj heq)).1]
    exact hr₄

/-- The state before the memory limit is enforced. -/
theorem finishing_path {s s₁ s₂ s₃ : TcpReassembler} {packet : ParsedPacket} {tcp : TcpFields}
    {timestamp : UInt32} {p : FlowPacket} {f : TcpFlow} (hr : Ready (view s))
    (hp : flowPacket packet tcp = p) (hf : s.flows.get? p.key = some f)
    (h₁ : applyHandshakeFlags { s with events := s.events ++ [p.event] } packet p.key tcp =
      .ok (s₁, .proceed))
    (h₂ : processPayload s₁ packet p.key tcp timestamp = .ok s₂)
    (h₃ : closeIfFinished s₂ p.key = .ok s₃) : Path (view s) (view s₃) := by
  have hwf : EngineWf (view { s with events := s.events ++ [p.event] }) :=
    ⟨hr.wf.wf, hr.wf.settled, hr.wf.memory⟩
  have hf₁ : ({ s with events := s.events ++ [p.event] } : TcpReassembler).flows.get? p.key =
      some f := hf
  cases hrst : p.tcp.rst with
  | true =>
    have hclosed := ((applyHandshakeFlags_rst hp hf₁ hwf hrst).apply h₁).1
    cases hclosed
  | false =>
    rw [applyHandshakeFlags_proceed hp hf₁ hrst] at h₁
    cases h₁
    obtain ⟨f', dir, chunks, hacc, hview₂⟩ :=
      (processPayload_returns hp hf₁ hwf timestamp).2 s₂ h₂
    have hmove : Move (view s) (view s₂) := by
      have := Move.packet (view s) f f' p dir chunks timestamp hf (hr.noClosed _ f hf) hrst hacc
      rw [hview₂]
      simpa [view] using this
    have hf₂ : s₂.flows.get? p.key = some f' := by
      rw [show s₂.flows = _ from congrArg View.flows hview₂]
      exact SortedMap.get?_insert_self _ _ _
    rcases (closeIfFinished_returns (hmove.wf hr.wf) hf₂).apply h₃ with ⟨-, rfl⟩ | ⟨-, hret⟩
    · exact .single hmove
    · exact (Relation.ReflTransGen.single hmove).tail (.retire _ _ p.key hret)

theorem Reachable.wf {ord : IterOrder} {config : ReassemblyConfig} {s : TcpReassembler}
    (h : Reachable ord config s) : EngineWf (view s) ∧ s.config = config := by
  cases h with
  | between s h => exact ⟨h.ready.1.wf, h.ready.2⟩
  | arriving s s₁ s₂ s₃ packet timestamp packetIndex key tcp h h₀ h₁ h₂ h₃ =>
    obtain ⟨hr, hcfg⟩ := h.ready
    obtain ⟨hr₃, hcfg₃⟩ := arriving_ready hr h₁ h₂ (congrArg Prod.fst h₃)
    exact ⟨hr₃.wf, hcfg₃.trans hcfg⟩
  | finishing t s₁ s₂ s₃ s₄ packet timestamp key tcp h h₁ h₂ h₃ h₄ =>
    obtain ⟨hr, hcfg⟩ := h.ready
    obtain ⟨hr₁, hcfg₁⟩ := arrive_ready hr h₁
    obtain ⟨hctx, -, -, _, _, -, f, hgreets⟩ := arrive_eq_ok hr h₁
    obtain rfl := tcpContext_key hctx.symm
    have hpath := finishing_path hr₁ rfl hgreets.get? h₂ h₃ h₄
    exact ⟨path_wf hpath hr₁.wf, ((path_config hpath).trans hcfg₁).trans hcfg⟩

/-- In every reachable state and for both triggers, the flows closed are the first in the order
of the victims, both limits are met at the end, and before each of the closes one of them was
not. -/
theorem evict_victims (ord : IterOrder) (config : ReassemblyConfig) (s : TcpReassembler)
    (hreach : Reachable ord config s) (trigger : EvictionTrigger) :
    ReturnsIf (trigger = .maxFlows → Fits config) (evictFlows ord s trigger) (fun s' =>
      ∃ target victims, flowCountTarget config trigger = .ok target ∧
        Evicted s s' target victims) := by
  obtain ⟨hwf, rfl⟩ := hreach.wf
  exact evictFlows_evicted ord hwf trigger

theorem Settled.run {ord : IterOrder} {config : ReassemblyConfig} {s s' : TcpReassembler}
    (h : Settled ord config s) {calls : List Call} (hrun : run (step ord) s calls = .ok s') :
    Settled ord config s' :=
  run_keeps (fun s call s' hs hs' => .call s s' call hs hs') h hrun

/-- A table with room for two flows that holds two: one of them is closed. -/
theorem evict_victims_two : ∃ s₀ s, TcpReassembler.new
      { ReassemblyConfig.default with maxFlows := 2 } = .ok s₀ ∧
    run (step keyOrder) s₀ [.segment left right 7 true false false [],
      .segment left (.v4 3, 90) 7 true false false []] = .ok s ∧
    Returns (evictFlows keyOrder s .maxFlows) (fun s' => ∃ target victims,
      flowCountTarget { ReassemblyConfig.default with maxFlows := 2 } .maxFlows = .ok target ∧
        Evicted s s' target victims) := by
  obtain ⟨s₀, hnew⟩ : ∃ s₀, TcpReassembler.new
    { ReassemblyConfig.default with maxFlows := 2 } = .ok s₀ := ⟨_, rfl⟩
  obtain ⟨s, hrun⟩ : ∃ s, Lib.run (step keyOrder) s₀ [.segment left right 7 true false false [],
      .segment left (.v4 3, 90) 7 true false false []] = .ok s := by
    cases hnew
    exact ⟨_, rfl⟩
  have hset : Settled keyOrder { ReassemblyConfig.default with maxFlows := 2 } s :=
    Settled.run (.new s₀ hnew) hrun
  exact ⟨s₀, s, hnew, hrun, (evict_victims keyOrder _ s (.between s hset) .maxFlows).returns
    (by decide)⟩

end Wirerust.Eviction
