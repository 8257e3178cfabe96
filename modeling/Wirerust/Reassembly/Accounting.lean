import Wirerust.Reassembly.EngineSpec

/-!
What the engine counts, over whole runs of `process_packet` and `expire_flows`.

* `run_bounded`: `total_memory` is the sum of `memory_used()` over the flow table, both
  limits hold after every call, and no packet is dropped for want of room.
* `run_conserves`: every flow ever created is still open or counted once as closed.
-/

namespace Wirerust.Accounting

open Lib Wirerust.Segment Wirerust.Direction Wirerust.Flow Wirerust.Engine Wirerust.Moves
  Wirerust.Retiring Wirerust.EngineSpec

/-! ## Memory and table bounds -/

theorem flowsMemorySum_eq {s : TcpReassembler} (hwf : EngineWf (view s)) :
    flowsMemorySum s = .ok s.totalMemory := by
  have hloop : ∀ (l : List (FlowKey × TcpFlow)) (sum : Nat),
      (∀ e ∈ l, ∀ w, Wf (e.2.dir w)) →
      l.foldlM (fun sum e => do .ok (sum + (← e.2.memoryUsed))) sum =
        (.ok (sum + (l.map fun e => bufferedBytes e.2).sum) : Checked Nat) := by
    intro l
    induction l with
    | nil => intro sum _; rfl
    | cons e l ih =>
      intro sum hl
      rw [List.foldlM_cons, memoryUsed_eq (hl e List.mem_cons_self)]
      simp only [bind, Except.bind] at ih ⊢
      rw [ih _ fun e' he' => hl e' (List.mem_cons_of_mem _ he'), List.map_cons, List.sum_cons,
        Nat.add_assoc]
  have hmem : s.totalMemory = s.flows.sumBy (fun e => bufferedBytes e.2) := hwf.memory
  rw [flowsMemorySum, hloop _ 0, hmem, Nat.zero_add]
  · rfl
  · intro e he
    exact hwf.wf e.1 e.2 ((s.flows.get?_eq_some_iff e.1 e.2).mpr he)

/-- No packet has been turned away. -/
def NoneDropped (v : View) : Prop := ∀ key, Event.packetDropped key ∉ v.events

theorem not_mem_dataEvents (key k : FlowKey) (dir : Direction) (timestamp : UInt32)
    (chunks : List (Chunk UInt8)) :
    Event.packetDropped k ∉ dataEvents key dir timestamp chunks := by
  simp [dataEvents]

theorem NoneDropped.move {v v' : View} (h : NoneDropped v) (hm : Move v v') : NoneDropped v' := by
  intro key
  cases hm with
  | create k timestamp index hnone hroom => simpa using h key
  | touch k f timestamp index hf => exact h key
  | packet f f' p dir chunks timestamp hf hopen hrst hacc =>
    simpa [FlowPacket.event, not_mem_dataEvents] using h key
  | reset f p client server hf hopen hrst hdrain =>
    simpa [closed, closeEvents, drainEvents, FlowPacket.event, not_mem_dataEvents] using h key
  | retire _ k hret =>
    obtain ⟨f, reason, client, server, hret⟩ := hret.result
    rw [hret.events]
    simpa [closeEvents, drainEvents, not_mem_dataEvents] using h key

theorem run_bounded (ord : IterOrder) (config : ReassemblyConfig) (s₀ : TcpReassembler)
    (hnew : TcpReassembler.new config = .ok s₀) (calls : List Call) :
    ReturnsIf (Lasting config calls) (run (step ord) s₀ calls) (fun s =>
      flowsMemorySum s = .ok s.totalMemory ∧ s.totalMemory ≤ config.memcap ∧
        s.flows.size ≤ config.maxFlows ∧ ∀ key, Event.packetDropped key ∉ s.events) := by
  refine (run_moves ord hnew (I := NoneDropped) (by simp [NoneDropped, View.init])
    (fun _ _ _ h hm => h.move hm) calls).mono fun s hs => ?_
  obtain ⟨rfl, hr, hnone⟩ := hs
  exact ⟨flowsMemorySum_eq hr.wf, hr.memory, hr.size, hnone⟩

/-- Two flows in a table with room for one. -/
theorem run_bounded_evicting : ∃ s₀,
    TcpReassembler.new { ReassemblyConfig.default with maxFlows := 1, memcap := 4 } = .ok s₀ ∧
    Returns (run (step keyOrder) s₀ [.segment left right 7 false true false [1, 2, 3],
        .segment left (.v4 3, 90) 7 false true false [1, 2, 3]]) (fun s =>
      flowsMemorySum s = .ok s.totalMemory ∧ s.totalMemory ≤ 4 ∧ s.flows.size ≤ 1 ∧
        ∀ key, Event.packetDropped key ∉ s.events) :=
  ⟨_, rfl, (run_bounded keyOrder { ReassemblyConfig.default with maxFlows := 1, memcap := 4 } _
    rfl _).returns (by decide)⟩

/-! ## Conservation -/

def retired (v : View) : Nat := v.flowsFin + v.flowsRst + v.flowsExpired + v.evictions

/-- While `flows_total` is below its maximum no counter is saturated. -/
def Conserved (v : View) : Prop :=
  v.flowsTotal < 2 ^ 64 - 1 → v.flowsTotal = v.flows.size + retired v

theorem bump_of_lt {n : Nat} (h : n < 2 ^ 64 - 1) : bump n = n + 1 := by
  unfold bump saturatingInc
  omega

theorem bump_le (n : Nat) : bump n < 2 ^ 64 - 1 → n < 2 ^ 64 - 1 := by
  unfold bump saturatingInc
  omega

theorem retired_countClose (v : View) (reason : CloseReason) (h : retired v < 2 ^ 64 - 1) :
    retired (countClose v reason) = retired v + 1 := by
  unfold retired at h ⊢
  cases reason <;> simp only [countClose] <;> rw [bump_of_lt (by omega)] <;> omega

theorem Conserved.close {v : View} (h : Conserved v) {key : FlowKey} {f : TcpFlow}
    (hf : v.flows.get? key = some f) {v' : View} (hflows : v'.flows = v.flows.erase key)
    (htotal : v'.flowsTotal = v.flowsTotal) (hretired : retired v' = retired v)
    (reason : CloseReason) : Conserved (countClose v' reason) := by
  intro hlt
  have hsize := SortedMap.size_erase_of_some _ hf
  rw [countClose_flowsTotal, htotal] at hlt ⊢
  have heq := h hlt
  rw [countClose_flows, hflows, retired_countClose _ _ (by omega), hretired]
  omega

theorem Conserved.move {v v' : View} (h : Conserved v) (hm : Move v v') : Conserved v' := by
  cases hm with
  | create key timestamp index hnone hroom =>
    intro hlt
    have hlt' := bump_le _ hlt
    have heq := h hlt'
    simp only [SortedMap.size_insert_of_none _ _ hnone, bump_of_lt hlt', retired] at heq ⊢
    omega
  | touch key f timestamp index hf =>
    intro hlt
    have heq := h hlt
    simpa [retired, SortedMap.size_insert_of_some _ _ hf] using heq
  | packet f f' p dir chunks timestamp hf hopen hrst hacc =>
    intro hlt
    have heq := h hlt
    simpa [retired, SortedMap.size_insert_of_some _ _ hf] using heq
  | reset f p client server hf hopen hrst hdrain =>
    refine h.close hf ?_ ?_ ?_ .rst <;> rfl
  | retire _ key hret =>
    cases hret with
    | mk f reason client server hf hdrain hfin =>
      refine h.close hf ?_ ?_ ?_ reason <;> rfl

theorem run_conserves (ord : IterOrder) (config : ReassemblyConfig) (s₀ : TcpReassembler)
    (hnew : TcpReassembler.new config = .ok s₀) (calls : List Call) :
    ReturnsIf (Lasting config calls) (run (step ord) s₀ calls) (fun s =>
      (s.stats.flowsTotal < 2 ^ 64 - 1 → s.stats.flowsTotal = s.flows.size +
        (s.stats.flowsFin + s.stats.flowsRst + s.stats.flowsExpired + s.stats.evictions)) ∧
      ∀ key f, s.flows.get? key = some f → f.state ≠ .closed) := by
  refine (run_moves ord hnew (I := Conserved) (fun _ => rfl)
    (fun _ _ _ h hm => h.move hm) calls).mono fun s hs => ?_
  obtain ⟨-, hr, hcons⟩ := hs
  exact ⟨hcons, hr.noClosed⟩

/-- A flow closed by two FINs and one that stays. -/
theorem run_conserves_fin : ∃ s₀, TcpReassembler.new .default = .ok s₀ ∧
    Returns (run (step keyOrder) s₀
      [.segment left right 7 false true true [],
        .segment right left 9 false true true [],
        .segment left (.v4 3, 90) 7 false true false [1], .expire 5]) (fun s =>
      (s.stats.flowsTotal < 2 ^ 64 - 1 → s.stats.flowsTotal = s.flows.size +
        (s.stats.flowsFin + s.stats.flowsRst + s.stats.flowsExpired + s.stats.evictions)) ∧
      ∀ key f, s.flows.get? key = some f → f.state ≠ .closed) :=
  ⟨_, rfl, (run_conserves keyOrder .default _ rfl _).returns (by decide)⟩

end Wirerust.Accounting
