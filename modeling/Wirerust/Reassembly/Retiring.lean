import Wirerust.Reassembly.Moves

/-!
How flows leave the table.

* `closeFlow_returns`: a flow in the table can be closed, and `closeFlow_retire` says that this
  is a `Retire`.
* `expireWhere_returns`: an expiry sweep retires flows.
* `evictFlows_returns`: eviction retires flows until both limits are met. It may only stop if
  `max_flows * 9` does not fit into a machine word (`Fits`).
-/

namespace Wirerust.Retiring

open Lib Wirerust.Segment Wirerust.Buffer Wirerust.Direction Wirerust.Flow Wirerust.Engine
  Wirerust.Moves

/-! ## Closing -/

theorem memoryUsed_eq {f : TcpFlow} (h : ∀ w, Wf (f.dir w)) :
    f.memoryUsed = .ok (bufferedBytes f) := by
  have hdir : ∀ d : FlowDirection, Wf d → Segment.memoryUsed d = .ok d.bufferedBytes := by
    intro d hd
    have hsum : d.bufferedBytes = (d.segments.entries.map fun e => e.2.length).sum := by
      rw [hd.accounted, contents, List.length_flatMap]
    rw [Segment.memoryUsed, assertThat_of hsum]
    rfl
  rw [TcpFlow.memoryUsed, hdir f.clientToServer (h .clientToServer),
    hdir f.serverToClient (h .serverToClient)]
  rfl

theorem closeFlow_returns {s : TcpReassembler} {key : FlowKey} {f : TcpFlow}
    (hwf : EngineWf (view s)) (hf : s.flows.get? key = some f) (reason : CloseReason) :
    Returns (closeFlow s key reason) (fun s' => ∃ client server, Drains f client server ∧
      view s' = closed (view s) key f reason client server) := by
  have hdirs := hwf.wf key f hf
  have hset := hwf.settled key f hf
  have hle : bufferedBytes f ≤ s.totalMemory := hwf.bufferedBytes_le hf
  unfold closeFlow
  rw [hf]
  simp only [memoryUsed_eq hdirs]
  refine (flushContiguous_returns (hdirs .clientToServer)).bind fun client hclient => ?_
  rw [(hset .clientToServer).flushes hclient, deliver_nil, ok_bind]
  refine (flushContiguous_returns (hdirs .serverToClient)).bind fun server hserver => ?_
  rw [(hset .serverToClient).flushes hserver, deliver_nil, ok_bind]
  simp only [checkedSub_of_le hle]
  have hnone : ∀ {d d' : FlowDirection} {chunks : List (Chunk UInt8)}, Drained d →
      Flushed d d' chunks → ∃ d', Flushed d d' [] := fun hd hfl => ⟨_, hd.flushes hfl ▸ hfl⟩
  refine Returns.pure ⟨[], [], ⟨hnone (hset .clientToServer) hclient,
    hnone (hset .serverToClient) hserver⟩, ?_⟩
  simp [view, closed, closeEvents, drainEvents, dataEvents, contents]

/-- Closing a flow after its counter has been bumped. -/
theorem closeFlow_retire {s s₁ : TcpReassembler} {key : FlowKey} {f : TcpFlow}
    (hwf : EngineWf (view s)) (hf : s.flows.get? key = some f) {reason : CloseReason}
    (hcount : view s₁ = countClose (view s) reason) (hfin : reason = .fin → f.state = .closed) :
    Returns (closeFlow s₁ key reason) (fun s' => Retire true (view s) key (view s')) := by
  have hflows : s₁.flows = s.flows :=
    (congrArg View.flows hcount).trans (countClose_flows (view s) reason)
  have hwf₁ : EngineWf (view s₁) := by
    rw [hcount]
    refine ⟨fun k g hg => hwf.wf k g (by simpa using hg),
      fun k g hg => hwf.settled k g (by simpa using hg), ?_⟩
    simpa using hwf.memory
  refine (closeFlow_returns hwf₁ (by rw [hflows]; exact hf) reason).mono fun s' hs' => ?_
  obtain ⟨client, server, hdrain, hview⟩ := hs'
  have hret : Retire true (view s) key _ := .mk key f reason client server hf hdrain hfin
  have hcomm : closed (view s₁) key f reason client server =
      countClose (closed (view s) key f reason client server) reason := by
    rw [hcount]
    cases reason <;> rfl
  rw [hview, hcomm]
  exact hret

/-! ## Flows that only leave -/

abbrev Retires (counted : Bool) : View → View → Prop :=
  Relation.ReflTransGen fun v v' => ∃ key, Retire counted v key v'

theorem Retires.path {v v' : View} (h : Retires true v v') : Path v v' := by
  induction h with
  | refl => exact .refl
  | tail _ hstep ih =>
    obtain ⟨key, hret⟩ := hstep
    exact ih.tail (.retire _ _ key hret)

theorem path_wf {v v' : View} (h : Path v v') (hwf : EngineWf v) : EngineWf v' := by
  induction h with
  | refl => exact hwf
  | tail _ hmove ih => exact hmove.wf ih

theorem path_config {v v' : View} (h : Path v v') : v'.config = v.config := by
  induction h with
  | refl => rfl
  | tail _ hmove ih => exact hmove.config.trans ih

theorem path_finalized {v v' : View} (h : Path v v') : v'.finalized = v.finalized := by
  induction h with
  | refl => rfl
  | tail _ hmove ih => exact hmove.finalized.trans ih

/-- Flows may have left, and nothing has come or changed. -/
structure Shrinks (v v' : View) : Prop where
  config : v'.config = v.config
  finalized : v'.finalized = v.finalized
  totalMemory : v'.totalMemory ≤ v.totalMemory
  size : v'.flows.size ≤ v.flows.size
  flows : ∀ k f, v'.flows.get? k = some f → v.flows.get? k = some f

theorem Shrinks.refl (v : View) : Shrinks v v :=
  ⟨rfl, rfl, Nat.le_refl _, Nat.le_refl _, fun _ _ h => h⟩

theorem Shrinks.trans {v v' v'' : View} (h : Shrinks v v') (h' : Shrinks v' v'') : Shrinks v v'' :=
  ⟨h'.config.trans h.config, h'.finalized.trans h.finalized,
    Nat.le_trans h'.totalMemory h.totalMemory, Nat.le_trans h'.size h.size,
    fun k f hf => h.flows k f (h'.flows k f hf)⟩

theorem get?_of_erase {m : SortedMap FlowKey TcpFlow} {key k : FlowKey} {f : TcpFlow}
    (h : (m.erase key).get? k = some f) : k ≠ key ∧ m.get? k = some f := by
  rw [SortedMap.get?_eq_some_iff, SortedMap.mem_erase] at h
  exact ⟨h.2, (SortedMap.get?_eq_some_iff _ _ _).mpr h.1⟩

theorem Retire.shrinks {counted : Bool} {v v' : View} {key : FlowKey}
    (h : Retire counted v key v') : Shrinks v v' := by
  obtain ⟨f, reason, client, server, hret⟩ := h.result
  refine ⟨hret.config, hret.finalized, ?_, ?_, fun k g hg => ?_⟩
  · rw [hret.totalMemory]
    exact Nat.sub_le _ _
  · rw [hret.flows]
    exact SortedMap.size_erase_le _ _
  · rw [hret.flows] at hg
    exact (get?_of_erase hg).2

theorem Retires.shrinks {counted : Bool} {v v' : View} (h : Retires counted v v') :
    Shrinks v v' := by
  induction h with
  | refl => exact Shrinks.refl _
  | tail _ hstep ih =>
    obtain ⟨key, hret⟩ := hstep
    exact ih.trans (Retire.shrinks hret)

theorem Retires.wf {counted : Bool} {v v' : View} (h : Retires counted v v') (hwf : EngineWf v) :
    EngineWf v' := by
  induction h with
  | refl => exact hwf
  | tail _ hstep ih =>
    obtain ⟨key, hret⟩ := hstep
    exact hret.wf ih

theorem Retires.spent_le {counted : Bool} {v v' : View} (h : Retires counted v v')
    (hwf : EngineWf v) : spent v' ≤ spent v := by
  induction h with
  | refl => exact Nat.le_refl _
  | tail hprefix hstep ih =>
    obtain ⟨key, hret⟩ := hstep
    exact Nat.le_trans (hret.spent_le (Retires.wf hprefix hwf)) ih

/-- A loop that closes one flow after the other closes them all. -/
theorem closeEach_returns (counted : Bool)
    {close : TcpReassembler → FlowKey → Checked TcpReassembler}
    (hclose : ∀ s key f, EngineWf (view s) → s.flows.get? key = some f →
      Returns (close s key) (fun s' => Retire counted (view s) key (view s')))
    (keys : List FlowKey) (hnodup : keys.Nodup) (s : TcpReassembler) (hwf : EngineWf (view s))
    (hin : ∀ k ∈ keys, (s.flows.get? k).isSome) :
    Returns (keys.foldlM close s) (fun s' => Retires counted (view s) (view s') ∧
      ∀ k ∈ keys, s'.flows.get? k = none) := by
  induction keys generalizing s with
  | nil => exact Returns.pure ⟨.refl, by simp⟩
  | cons key keys ih =>
    obtain ⟨hkey, hnodup'⟩ := List.nodup_cons.mp hnodup
    obtain ⟨hsome, hin'⟩ := List.forall_mem_cons.mp hin
    obtain ⟨f, hf⟩ := Option.isSome_iff_exists.mp hsome
    rw [List.foldlM_cons]
    refine (hclose s key f hwf hf).bind fun s₁ hret => ?_
    have hflows : s₁.flows = s.flows.erase key := hret.flows
    have hin₁ : ∀ k ∈ keys, (s₁.flows.get? k).isSome := by
      intro k hk
      have hne : k ≠ key := fun heq => hkey (heq ▸ hk)
      rw [hflows, SortedMap.get?_erase_of_ne _ hne]
      exact hin' k hk
    refine (ih hnodup' s₁ (hret.wf hwf) hin₁).mono fun s' hs' => ⟨.head ⟨key, hret⟩ hs'.1, ?_⟩
    intro k hk
    rcases List.mem_cons.mp hk with rfl | hk
    · cases hg : s'.flows.get? k with
      | none => rfl
      | some g =>
        have := (Retires.shrinks hs'.1).flows k g hg
        rw [show (view s₁).flows = s.flows.erase k from hflows, SortedMap.get?_erase_self] at this
        cases this
    · exact hs'.2 k hk

/-! ## Expiry -/

theorem nodup_keys (m : SortedMap FlowKey TcpFlow) : (m.entries.map Prod.fst).Nodup := by
  rw [List.Nodup, List.pairwise_map]
  exact m.sorted.imp fun h => ne_of_lt h

theorem isSome_of_mem_keys {m : SortedMap FlowKey TcpFlow} {k : FlowKey}
    (h : k ∈ m.entries.map Prod.fst) : (m.get? k).isSome := by
  obtain ⟨e, he, rfl⟩ := List.mem_map.mp h
  rw [(m.get?_eq_some_iff e.1 e.2).mpr he]
  rfl

theorem expireWhere_returns (ord : IterOrder) {s : TcpReassembler} (hwf : EngineWf (view s))
    (idle : TcpFlow → Bool) :
    Returns (expireWhere ord s idle) (fun s' => Retires true (view s) (view s')) := by
  unfold expireWhere
  have hperm := (ord.perm s.iterations s.flows.entries).map Prod.fst
  have hsub := (List.filter_sublist (p := fun e : FlowKey × TcpFlow => idle e.2)
    (l := ord.visit s.iterations s.flows.entries)).map Prod.fst
  refine (closeEach_returns true (s := { s with iterations := s.iterations + 1 }) ?_ _
    ((hperm.nodup_iff.mpr (nodup_keys s.flows)).sublist hsub) hwf ?_).mono fun s' h => h.1
  · intro t key f ht hf
    exact closeFlow_retire ht hf rfl (by simp)
  · intro k hk
    exact isSome_of_mem_keys (hperm.mem_iff.mp (hsub.subset hk))

theorem sweepByTimestamp_returns (ord : IterOrder) {s : TcpReassembler} (hwf : EngineWf (view s))
    (timestamp : UInt32) :
    Returns (sweepByTimestamp ord s timestamp) (fun s' => Retires true (view s) (view s')) := by
  unfold sweepByTimestamp
  split
  · exact expireWhere_returns ord (s := { s with lastExpirySweepSecs := timestamp }) hwf _
  · exact Returns.pure .refl

theorem sweepByPacketIndex_returns (ord : IterOrder) {s : TcpReassembler}
    (hwf : EngineWf (view s)) :
    Returns (sweepByPacketIndex ord s) (fun s' => Retires true (view s) (view s')) := by
  unfold sweepByPacketIndex
  split
  · exact expireWhere_returns ord hwf _
  · exact Returns.pure .refl

/-! ## Eviction -/

theorem evictLoop_returns (target : Nat) (keys : List FlowKey) (hnodup : keys.Nodup)
    (s : TcpReassembler) (hwf : EngineWf (view s))
    (hkeys : ∀ k, (s.flows.get? k).isSome ↔ k ∈ keys) :
    Returns (evictLoop target s keys) (fun s' => Retires true (view s) (view s') ∧
      s'.totalMemory ≤ s'.config.memcap ∧ s'.flows.size ≤ target) := by
  induction keys generalizing s with
  | nil =>
    have hnil : s.flows.entries = [] := by
      apply List.eq_nil_iff_forall_not_mem.mpr
      intro e he
      have := (hkeys e.1).mp (by rw [(s.flows.get?_eq_some_iff e.1 e.2).mpr he]; rfl)
      cases this
    have hmem : s.totalMemory = 0 := by
      have := hwf.memory
      simpa [SortedMap.sumBy, view, hnil] using this
    refine Returns.pure ⟨.refl, ?_, ?_⟩
    · rw [hmem]
      exact Nat.zero_le _
    · simp [SortedMap.size, hnil]
  | cons key keys ih =>
    unfold evictLoop
    by_cases hdone : s.totalMemory ≤ s.config.memcap ∧ s.flows.size ≤ target
    · rw [if_pos hdone]
      exact Returns.pure ⟨.refl, hdone⟩
    · rw [if_neg hdone]
      obtain ⟨hkey, hnodup'⟩ := List.nodup_cons.mp hnodup
      obtain ⟨f, hf⟩ := Option.isSome_iff_exists.mp ((hkeys key).mpr List.mem_cons_self)
      refine (closeFlow_retire hwf hf rfl (by simp)).bind fun s₁ hret => ?_
      have hflows : s₁.flows = s.flows.erase key := hret.flows
      have hkeys₁ : ∀ k, (s₁.flows.get? k).isSome ↔ k ∈ keys := by
        intro k
        rw [hflows]
        by_cases hk : k = key
        · subst hk
          rw [SortedMap.get?_erase_self]
          simp [hkey]
        · rw [SortedMap.get?_erase_of_ne _ hk, hkeys k, List.mem_cons]
          simp [hk]
      exact (ih hnodup' s₁ (hret.wf hwf) hkeys₁).mono fun s' hs' => ⟨.head ⟨key, hret⟩ hs'.1, hs'.2⟩

/-- `max_flows * 9` fits into a machine word. -/
def Fits (config : ReassemblyConfig) : Prop := config.maxFlows * 9 < 2 ^ 64

instance (config : ReassemblyConfig) : Decidable (Fits config) :=
  inferInstanceAs (Decidable (config.maxFlows * 9 < 2 ^ 64))

theorem flowCountTarget_returns (config : ReassemblyConfig) (trigger : EvictionTrigger) :
    ReturnsIf (Fits config) (flowCountTarget config trigger)
      (fun target => target ≤ config.maxFlows - 1) := by
  cases trigger with
  | memCap => exact ReturnsIf.pure (Nat.le_refl _)
  | maxFlows =>
    unfold flowCountTarget checkedMul
    by_cases h : config.maxFlows * 9 < 2 ^ 64
    · rw [if_pos h]
      exact ReturnsIf.pure (Nat.min_le_right _ _)
    · rw [if_neg h]
      refine ⟨fun hfits => absurd hfits h, fun a ha => ?_⟩
      cases ha

theorem evictFlows_returns (ord : IterOrder) {s : TcpReassembler} (hwf : EngineWf (view s))
    (trigger : EvictionTrigger) :
    ReturnsIf (Fits s.config) (evictFlows ord s trigger) (fun s' =>
      Retires true (view s) (view s') ∧ s'.totalMemory ≤ s'.config.memcap ∧
        s'.flows.size ≤ s.config.maxFlows - 1) := by
  unfold evictFlows
  refine (flowCountTarget_returns s.config trigger).bind fun target htarget => ?_
  have hperm := (((ord.visit s.iterations s.flows.entries).perm_insertionSort victimLe).trans
    (ord.perm s.iterations s.flows.entries)).map Prod.fst
  refine Returns.returnsIf ?_ _
  refine (evictLoop_returns target _ (hperm.nodup_iff.mpr (nodup_keys s.flows))
    { s with iterations := s.iterations + 1 } hwf fun k => ?_).mono fun s' hs' =>
      ⟨hs'.1, hs'.2.1, Nat.le_trans hs'.2.2 htarget⟩
  rw [hperm.mem_iff]
  refine ⟨fun h => ?_, isSome_of_mem_keys⟩
  obtain ⟨f, hf⟩ := Option.isSome_iff_exists.mp h
  exact List.mem_map.mpr ⟨(k, f), (SortedMap.get?_eq_some_iff _ _ _).mp hf, rfl⟩

theorem enforceMemcap_returns (ord : IterOrder) {s : TcpReassembler} (hwf : EngineWf (view s)) :
    ReturnsIf (Fits s.config) (enforceMemcap ord s) (fun s' =>
      Retires true (view s) (view s') ∧ s'.totalMemory ≤ s'.config.memcap) := by
  unfold enforceMemcap
  split
  · exact (evictFlows_returns ord hwf .memCap).mono fun s' hs' => ⟨hs'.1, hs'.2.1⟩
  · rename_i hle
    exact ReturnsIf.pure ⟨.refl, Nat.le_of_not_lt hle⟩

end Wirerust.Retiring
