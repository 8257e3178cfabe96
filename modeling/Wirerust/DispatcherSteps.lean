import Wirerust.Dispatcher
import Wirerust.Analyzer.ModbusStream
import Wirerust.Analyzer.Dnp3Turns

/-!
What one call of the dispatcher does.

`Kept` is what delivering a chunk and retiring a flow leave alone; `onData_cases` and
`onFlowClose_cases` say what is left of a call besides these two. `Consistent` is the invariant:
no key is in both maps, every count is below the budget, an analyzer has an entry only for flows
routed to it, and the counts of the ports add up. `Consistent.onInput_step` says that every call
keeps it.
-/

namespace Wirerust.Dispatcher

open Lib Wirerust.Flow Wirerust.Analyzer

variable {a : Analyzers}

/-- Whether the analyzer of the target has an entry for the flow. -/
def StreamDispatcher.holds (s : StreamDispatcher a) (target : DispatchTarget)
    (flowKey : FlowKey) : Bool :=
  match target with
  | .http => (s.http.bind fun t => t.flows.get? flowKey).isSome
  | .tls => (s.tls.bind fun t => t.flows.get? flowKey).isSome
  | .modbus => (s.modbus.bind fun m => m.flows.get? flowKey).isSome
  | .dnp3 => (s.dnp3.bind fun d => d.flows.get? flowKey).isSome
  | .enip => (s.enip.bind fun t => t.flows.get? flowKey).isSome
  | .iec104 => (s.iec104.bind fun t => t.flows.get? flowKey).isSome
  | .none => false

/-! ## Delivering and retiring -/

/-- All but the analyzers, and which of them there are. -/
structure Kept (s s' : StreamDispatcher a) : Prop where
  routes : s'.routes = s.routes
  attempts : s'.classificationAttempts = s.classificationAttempts
  max : s'.maxClassificationAttempts = s.maxClassificationAttempts
  unclassified : s'.unclassifiedFlows = s.unclassifiedFlows
  ports : s'.unclassifiedPortCounts = s.unclassifiedPortCounts
  gaps : s'.coverageGapsEnabled = s.coverageGapsEnabled
  calls : s'.calls = s.calls
  configured : ∀ target, s'.configured target = s.configured target

theorem Kept.refl (s : StreamDispatcher a) : Kept s s :=
  ⟨rfl, rfl, rfl, rfl, rfl, rfl, rfl, fun _ => rfl⟩

/-- A call changes an analyzer at most at the entry of its flow. -/
def Touches {ν : Type} (flowKey : FlowKey) (m m' : SortedMap FlowKey ν) : Prop :=
  ∀ k, k ≠ flowKey → m'.get? k = m.get? k

theorem feed_spec {α ν : Type} {onData : α → Checked α} {table : α → SortedMap FlowKey ν}
    {flowKey : FlowKey} (htouch : ∀ x x', onData x = .ok x' → Touches flowKey (table x) (table x'))
    {slot slot' : Option α} (h : feed onData slot = .ok slot') :
    slot'.isSome = slot.isSome ∧ ∀ k, k ≠ flowKey →
      (slot'.bind fun x => (table x).get? k) = slot.bind fun x => (table x).get? k := by
  cases slot with
  | none =>
    cases h
    exact ⟨rfl, fun _ _ => rfl⟩
  | some x =>
    obtain ⟨x', hx', hout⟩ := bind_eq_ok.mp h
    cases hout
    exact ⟨rfl, fun k hk => htouch x x' hx' k hk⟩

theorem touches_insert {ν : Type} (flowKey : FlowKey) (m : SortedMap FlowKey ν) (v : ν) :
    Touches flowKey m (m.insert flowKey v) := fun _ hk => m.get?_insert_of_ne v hk

theorem Table.onData_touches {code : TableAnalyzer} {t t' : Table code} {c : Chunk}
    (h : t.onData c = .ok t') : Touches c.flowKey t.flows t'.flows := by
  obtain ⟨⟨shared, entry⟩, -, hout⟩ := bind_eq_ok.mp h
  cases hout
  exact touches_insert c.flowKey t.flows entry

theorem modbus_touches {m m' : Modbus.ModbusAnalyzer} {c : Chunk}
    (h : Modbus.onData m c.flowKey c.direction c.data c.timestamp = .ok m') :
    Touches c.flowKey m.flows m'.flows := by
  obtain ⟨flow, hflows⟩ := Modbus.onData_flows h
  intro k hk
  rw [hflows, SortedMap.get?_insert_of_ne _ flow hk, SortedMap.get?_erase_of_ne _ hk]

theorem dnp3_touches {ord : Dnp3.PendingOrder} {d d' : Dnp3.Dnp3Analyzer} {c : Chunk}
    (h : Dnp3.onData ord d c.flowKey c.data c.timestamp c.direction = .ok d') :
    Touches c.flowKey d.flows d'.flows := by
  obtain ⟨flow, hflows⟩ := Dnp3.onData_flows h
  rw [hflows]
  exact touches_insert c.flowKey d.flows flow

/-- What `deliver` changes: an entry of the flow in the table of the target. -/
structure Delivered (target : DispatchTarget) (flowKey : FlowKey) (s s' : StreamDispatcher a) :
    Prop where
  kept : Kept s s'
  holds : ∀ t k, ¬ (t = target ∧ k = flowKey) → s'.holds t k = s.holds t k

theorem deliver_spec {s s' : StreamDispatcher a} {target : DispatchTarget} {c : Chunk}
    (h : deliver s target c = .ok s') : Delivered target c.flowKey s s' := by
  have hkey : ∀ {t : DispatchTarget} {k : FlowKey}, ¬ (t = target ∧ k = c.flowKey) →
      t = target → k ≠ c.flowKey := fun hn ht hk => hn ⟨ht, hk⟩
  cases target
  case none =>
    cases h
    exact ⟨Kept.refl s, fun _ _ _ => rfl⟩
  all_goals
    obtain ⟨slot, hslot, hout⟩ := bind_eq_ok.mp h
    cases hout
    first
    | have hfed := feed_spec (fun _ _ => Table.onData_touches) hslot
    | have hfed := feed_spec (fun _ _ => modbus_touches) hslot
    | have hfed := feed_spec (fun _ _ => dnp3_touches) hslot
    obtain ⟨hsome, hget⟩ := hfed
    refine ⟨⟨rfl, rfl, rfl, rfl, rfl, rfl, rfl, fun t => ?_⟩, fun t k hn => ?_⟩
    · cases t <;> first | exact hsome | rfl
    · cases t <;> first | exact congrArg Option.isSome (hget k (hkey hn rfl)) | rfl

theorem map_spec {α ν : Type} {close : α → α} {table : α → SortedMap FlowKey ν}
    {flowKey : FlowKey} (hclose : ∀ x, table (close x) = (table x).erase flowKey)
    (slot : Option α) (k : FlowKey) :
    ((slot.map close).bind fun x => (table x).get? k).isSome =
      ((slot.bind fun x => (table x).get? k).isSome && !decide (k = flowKey)) := by
  cases slot with
  | none => rfl
  | some x =>
    simp only [Option.map_some, Option.bind_some, hclose]
    by_cases hk : k = flowKey
    · rw [hk, SortedMap.get?_erase_self]
      simp
    · rw [SortedMap.get?_erase_of_ne _ hk]
      simp [hk]

theorem Table.onFlowClose_flows {code : TableAnalyzer} (t : Table code) (flowKey : FlowKey) :
    (t.onFlowClose flowKey).flows = t.flows.erase flowKey := by
  unfold Table.onFlowClose
  split
  · rfl
  · rename_i hnone
    rw [t.flows.erase_of_none hnone]

theorem dnp3_close_flows (d : Dnp3.Dnp3Analyzer) (flowKey : FlowKey) :
    (Dnp3.onFlowClose d flowKey).flows = d.flows.erase flowKey := by
  unfold Dnp3.onFlowClose
  split
  · rfl
  · rename_i hnone
    rw [d.flows.erase_of_none hnone]

/-- What `retireFlow` changes: the entry of the flow in the table of the target is gone. -/
structure Retired (target : DispatchTarget) (flowKey : FlowKey) (s s' : StreamDispatcher a) :
    Prop where
  kept : Kept s s'
  holds : ∀ t k, s'.holds t k = (s.holds t k && !decide (t = target ∧ k = flowKey))

theorem retireFlow_spec (s : StreamDispatcher a) (target : DispatchTarget) (flowKey : FlowKey) :
    Retired target flowKey s (retireFlow s target flowKey) := by
  cases target
  case none =>
    refine ⟨Kept.refl s, fun t k => ?_⟩
    cases t <;> simp [retireFlow, StreamDispatcher.holds]
  all_goals
    refine ⟨⟨rfl, rfl, rfl, rfl, rfl, rfl, rfl, fun t => ?_⟩, fun t k => ?_⟩
    · cases t <;> simp [retireFlow, StreamDispatcher.configured]
    · cases t <;> simp only [retireFlow, StreamDispatcher.holds, reduceCtorEq, false_and, true_and,
        decide_false, Bool.not_false, Bool.and_true]
      first
      | exact map_spec (fun t => Table.onFlowClose_flows t flowKey) _ k
      | exact map_spec (fun m : Modbus.ModbusAnalyzer => rfl) _ k
      | exact map_spec (fun d => dnp3_close_flows d flowKey) _ k

/-! ## One call -/

inductive Input
  | data (c : Chunk)
  | close (flowKey : FlowKey) (reason : CloseReason)

def onInput (s : StreamDispatcher a) : Input → Checked (StreamDispatcher a)
  | .data c => onData s c
  | .close flowKey reason => .ok (onFlowClose s flowKey reason)

/-- A flow is routed, or is tried again later. -/
theorem route_cases (s : StreamDispatcher a) (c : Chunk) :
    (∃ target, s.routes.get? c.flowKey = some target ∧ route s c = (s, target)) ∨
    (s.routes.get? c.flowKey = none ∧ ∃ target, route s c =
      ({ s with
        routes := s.routes.insert c.flowKey target
        classificationAttempts := s.classificationAttempts.erase c.flowKey }, target)) ∨
    (s.routes.get? c.flowKey = none ∧ ∃ count, count < s.maxClassificationAttempts.toNat ∧
      route s c = ({ s with
        classificationAttempts := s.classificationAttempts.insert c.flowKey count }, .none)) := by
  unfold route
  split
  · rename_i cached hcached
    exact .inl ⟨cached, hcached, rfl⟩
  · rename_i hnone
    dsimp only
    split
    · split
      · exact .inr (.inl ⟨hnone, .none, rfl⟩)
      · rename_i hcount
        exact .inr (.inr ⟨hnone, _, Nat.lt_of_not_le hcount, rfl⟩)
    · exact .inr (.inl ⟨hnone, _, rfl⟩)

theorem onData_cases {s s' : StreamDispatcher a} {c : Chunk} (h : onData s c = .ok s') :
    (s.anyConfigured = false ∧ s' = s) ∨
    Delivered (route s c).2 c.flowKey (record (route s c).1 (route s c).2 c) s' := by
  unfold onData at h
  split at h
  · rename_i hnone
    cases h
    exact .inl ⟨by simpa using hnone, rfl⟩
  · exact .inr (deliver_spec h)

theorem configured_of_not_any {s : StreamDispatcher a} (h : s.anyConfigured = false)
    (target : DispatchTarget) : s.configured target = false := by
  simp only [StreamDispatcher.anyConfigured, Bool.or_eq_false_iff] at h
  obtain ⟨⟨⟨⟨⟨hhttp, htls⟩, hmodbus⟩, hdnp3⟩, henip⟩, hiec104⟩ := h
  cases target
  · exact hhttp
  · exact htls
  · exact hmodbus
  · exact hdnp3
  · exact henip
  · exact hiec104
  · rfl

/-! ## The invariant -/

/-- What the counts of the ports add up to. -/
def portTotal (counts : SortedMap (TransportProto ×ₗ UInt16) Nat) : Nat := counts.sumBy (·.2)

structure Consistent (s : StreamDispatcher a) : Prop where
  disjoint : ∀ k, s.routes.get? k = none ∨ s.classificationAttempts.get? k = none
  budget : ∀ k n, s.classificationAttempts.get? k = some n →
    n < s.maxClassificationAttempts.toNat
  tables : ∀ target k, s.holds target k = true → s.routes.get? k = some target
  ports : s.coverageGapsEnabled = true → s.unclassifiedFlows < 2 ^ 64 - 1 →
    portTotal s.unclassifiedPortCounts = s.unclassifiedFlows

theorem Consistent.routed {s : StreamDispatcher a} (h : Consistent s) (c : Chunk) :
    Consistent (route s c).1 ∧
      ((route s c).1.routes.get? c.flowKey = some (route s c).2 ∨ (route s c).2 = .none) := by
  rcases route_cases s c with ⟨target, hcached, hroute⟩ | ⟨hnone, target, hroute⟩ |
    ⟨hnone, count, hcount, hroute⟩
  · rw [hroute]
    exact ⟨h, .inl hcached⟩
  · rw [hroute]
    refine ⟨⟨fun k => ?_, fun k n hn => ?_, fun t k hk => ?_, h.ports⟩,
      .inl (SortedMap.get?_insert_self _ _ _)⟩
    · by_cases hk : k = c.flowKey
      · exact .inr (by rw [hk]; exact SortedMap.get?_erase_self _ _)
      · simp only [SortedMap.get?_insert_of_ne _ _ hk, SortedMap.get?_erase_of_ne _ hk]
        exact h.disjoint k
    · by_cases hk : k = c.flowKey
      · simp [hk] at hn
      · simp only [SortedMap.get?_erase_of_ne _ hk] at hn
        exact h.budget k n hn
    · have hold := h.tables t k hk
      have hne : k ≠ c.flowKey := by
        rintro rfl
        rw [hnone] at hold
        cases hold
      simpa only [SortedMap.get?_insert_of_ne _ _ hne] using hold
  · rw [hroute]
    refine ⟨⟨fun k => ?_, fun k n hn => ?_, h.tables, h.ports⟩, .inr rfl⟩
    · by_cases hk : k = c.flowKey
      · exact .inl (by rw [hk]; exact hnone)
      · simp only [SortedMap.get?_insert_of_ne _ _ hk]
        exact h.disjoint k
    · by_cases hk : k = c.flowKey
      · simp only [hk, SortedMap.get?_insert_self, Option.some.injEq] at hn
        rw [← hn]
        exact hcount
      · simp only [SortedMap.get?_insert_of_ne _ _ hk] at hn
        exact h.budget k n hn

theorem record_routes (s : StreamDispatcher a) (target : DispatchTarget) (c : Chunk) :
    (record s target c).routes = s.routes := by
  unfold record
  split
  · rfl
  · rfl

theorem Consistent.recorded {s : StreamDispatcher a} (h : Consistent s) (target : DispatchTarget)
    (c : Chunk) : Consistent (record s target c) := by
  unfold record
  split
  · exact ⟨h.disjoint, h.budget, fun t k hk => h.tables t k hk, h.ports⟩
  · exact h

theorem Consistent.delivered {s s' : StreamDispatcher a} {target : DispatchTarget}
    {flowKey : FlowKey} (h : Consistent s)
    (hroute : s.routes.get? flowKey = some target ∨ target = .none)
    (hdel : Delivered target flowKey s s') : Consistent s' := by
  obtain ⟨hkept, hholds⟩ := hdel
  refine ⟨?_, ?_, fun t k hk => ?_, ?_⟩
  · rw [hkept.routes, hkept.attempts]
    exact h.disjoint
  · rw [hkept.attempts, hkept.max]
    exact h.budget
  · rw [hkept.routes]
    by_cases hsame : t = target ∧ k = flowKey
    · obtain ⟨rfl, rfl⟩ := hsame
      rcases hroute with hroute | rfl
      · exact hroute
      · cases hk
    · rw [hholds t k hsame] at hk
      exact h.tables t k hk
  · rw [hkept.gaps, hkept.unclassified, hkept.ports]
    exact h.ports

theorem Consistent.onData_step {s s' : StreamDispatcher a} (h : Consistent s) {c : Chunk}
    (hdata : onData s c = .ok s') : Consistent s' := by
  rcases onData_cases hdata with ⟨-, rfl⟩ | hdel
  · exact h
  · obtain ⟨hrouted, hroute⟩ := h.routed c
    refine (hrouted.recorded _ c).delivered ?_ hdel
    rw [record_routes]
    exact hroute

theorem count_le_portTotal (counts : SortedMap (TransportProto ×ₗ UInt16) Nat)
    (key : TransportProto ×ₗ UInt16) : (counts.get? key).getD 0 ≤ portTotal counts := by
  cases hget : counts.get? key with
  | none => exact Nat.zero_le _
  | some n =>
    rw [portTotal, counts.sumBy_erase (·.2) hget, Option.getD_some]
    exact Nat.le_add_right _ _

theorem portTotal_insert (counts : SortedMap (TransportProto ×ₗ UInt16) Nat)
    (key : TransportProto ×ₗ UInt16) :
    portTotal (counts.insert key ((counts.get? key).getD 0 + 1)) = portTotal counts + 1 := by
  rw [portTotal, counts.sumBy_insert]
  cases hget : counts.get? key with
  | none =>
    rw [counts.erase_of_none hget, Option.getD_none, portTotal]
    omega
  | some n =>
    rw [portTotal, counts.sumBy_erase (·.2) hget, Option.getD_some]
    omega

/-- A flow is counted in total and at its port, below saturation. -/
theorem countUnclassified_ports {s : StreamDispatcher a} (flowKey : FlowKey)
    (h : s.coverageGapsEnabled = true → s.unclassifiedFlows < 2 ^ 64 - 1 →
      portTotal s.unclassifiedPortCounts = s.unclassifiedFlows)
    (hgaps : s.coverageGapsEnabled = true)
    (hbound : (countUnclassified s flowKey).unclassifiedFlows < 2 ^ 64 - 1) :
    portTotal (countUnclassified s flowKey).unclassifiedPortCounts =
      (countUnclassified s flowKey).unclassifiedFlows := by
  unfold countUnclassified at hbound ⊢
  split at hbound
  · rename_i hany
    simp only [if_pos hany, hgaps, if_true] at hbound ⊢
    have hold := h hgaps (by unfold bump64 saturatingInc at hbound; omega)
    have hle := count_le_portTotal s.unclassifiedPortCounts
      (toLex (TransportProto.tcp, min flowKey.lowerPort flowKey.upperPort))
    have hcount : ∀ n, n ≤ s.unclassifiedFlows → bump64 n = n + 1 := by
      intro n hn
      unfold bump64 saturatingInc at hbound ⊢
      omega
    rw [hcount _ (hle.trans_eq hold), portTotal_insert, hcount _ (Nat.le_refl _), hold]
  · rename_i hnone
    rw [if_neg hnone]
    exact h hgaps hbound

theorem countUnclassified_rest (s : StreamDispatcher a) (flowKey : FlowKey) :
    ∃ n counts, countUnclassified s flowKey =
      { s with unclassifiedFlows := n, unclassifiedPortCounts := counts } := by
  unfold countUnclassified
  split
  · dsimp only
    split
    · exact ⟨_, _, rfl⟩
    · exact ⟨_, _, rfl⟩
  · exact ⟨_, _, rfl⟩

/-- The dispatcher with the flow taken out of both maps. -/
def forget (s : StreamDispatcher a) (flowKey : FlowKey) : StreamDispatcher a :=
  { s with
    classificationAttempts := s.classificationAttempts.erase flowKey
    routes := s.routes.erase flowKey }

/-- A close retires the flow at its analyzer, or counts a flow that has none. -/
theorem onFlowClose_cases (s : StreamDispatcher a) (flowKey : FlowKey) (reason : CloseReason) :
    ((s.routes.get? flowKey = none ∨ s.routes.get? flowKey = some .none) ∧
      onFlowClose s flowKey reason = countUnclassified (forget s flowKey) flowKey) ∨
    (∃ target, s.routes.get? flowKey = some target ∧
      onFlowClose s flowKey reason = retireFlow (forget s flowKey) target flowKey) := by
  unfold onFlowClose forget
  dsimp only
  cases hroute : s.routes.get? flowKey with
  | none => exact .inl ⟨.inl rfl, rfl⟩
  | some target =>
    cases target
    case none => exact .inl ⟨.inr rfl, rfl⟩
    all_goals exact .inr ⟨_, rfl, rfl⟩

/-- What a close does to the rest. -/
structure Closed (flowKey : FlowKey) (s s' : StreamDispatcher a) : Prop where
  routes : s'.routes = s.routes.erase flowKey
  attempts : s'.classificationAttempts = s.classificationAttempts.erase flowKey
  max : s'.maxClassificationAttempts = s.maxClassificationAttempts
  gaps : s'.coverageGapsEnabled = s.coverageGapsEnabled
  calls : s'.calls = s.calls
  configured : ∀ target, s'.configured target = s.configured target

theorem onFlowClose_closed (s : StreamDispatcher a) (flowKey : FlowKey) (reason : CloseReason) :
    Closed flowKey s (onFlowClose s flowKey reason) := by
  rcases onFlowClose_cases s flowKey reason with ⟨-, heq⟩ | ⟨target, -, heq⟩
  · obtain ⟨n, counts, hcount⟩ := countUnclassified_rest (forget s flowKey) flowKey
    rw [heq, hcount]
    exact ⟨rfl, rfl, rfl, rfl, rfl, fun t => by cases t <;> rfl⟩
  · have hkept := (retireFlow_spec (forget s flowKey) target flowKey).kept
    rw [heq]
    exact ⟨hkept.routes, hkept.attempts, hkept.max, hkept.gaps, hkept.calls, hkept.configured⟩

theorem Consistent.onFlowClose_step {s : StreamDispatcher a} (h : Consistent s)
    (flowKey : FlowKey) (reason : CloseReason) : Consistent (onFlowClose s flowKey reason) := by
  have hclosed := onFlowClose_closed s flowKey reason
  -- An entry that is left is one of another flow, and that flow is still routed.
  have htables : ∀ target k, s.holds target k = true → k ≠ flowKey →
      (onFlowClose s flowKey reason).routes.get? k = some target := by
    intro target k hk hne
    rw [hclosed.routes, SortedMap.get?_erase_of_ne _ hne]
    exact h.tables target k hk
  refine ⟨fun k => ?_, fun k n hn => ?_, fun target k hk => ?_, fun hgaps hbound => ?_⟩
  · rw [hclosed.routes, hclosed.attempts]
    by_cases hk : k = flowKey
    · exact .inl (by rw [hk]; exact SortedMap.get?_erase_self _ _)
    · rw [SortedMap.get?_erase_of_ne _ hk, SortedMap.get?_erase_of_ne _ hk]
      exact h.disjoint k
  · rw [hclosed.attempts] at hn
    rw [hclosed.max]
    by_cases hk : k = flowKey
    · rw [hk, SortedMap.get?_erase_self] at hn
      cases hn
    · rw [SortedMap.get?_erase_of_ne _ hk] at hn
      exact h.budget k n hn
  · rcases onFlowClose_cases s flowKey reason with ⟨hroute, heq⟩ | ⟨closed, hroute, heq⟩
    · have hold : s.holds target k = true := by
        obtain ⟨n, counts, hcount⟩ := countUnclassified_rest (forget s flowKey) flowKey
        rw [heq, hcount] at hk
        cases target <;> exact hk
      refine htables target k hold ?_
      rintro rfl
      have hrouted := h.tables target k hold
      rcases hroute with hroute | hroute
      · rw [hroute] at hrouted
        cases hrouted
      · rw [hroute] at hrouted
        cases hrouted
        cases hold
    · rw [heq, (retireFlow_spec (forget s flowKey) closed flowKey).holds] at hk
      simp only [Bool.and_eq_true, Bool.not_eq_true', decide_eq_false_iff_not, not_and] at hk
      have hold : s.holds target k = true := by cases target <;> exact hk.1
      refine htables target k hold ?_
      rintro rfl
      have hrouted := h.tables target k hold
      rw [hroute] at hrouted
      cases hrouted
      exact hk.2 rfl rfl
  · rcases onFlowClose_cases s flowKey reason with ⟨-, heq⟩ | ⟨closed, -, heq⟩
    · rw [hclosed.gaps] at hgaps
      rw [heq] at hbound ⊢
      exact countUnclassified_ports flowKey h.ports hgaps hbound
    · have hkept := (retireFlow_spec (forget s flowKey) closed flowKey).kept
      rw [heq, hkept.ports, hkept.unclassified]
      rw [heq, hkept.gaps] at hgaps
      rw [heq, hkept.unclassified] at hbound
      exact h.ports hgaps hbound

theorem Consistent.onInput_step {s s' : StreamDispatcher a} (h : Consistent s) {i : Input}
    (hstep : onInput s i = .ok s') : Consistent s' := by
  cases i with
  | data c => exact h.onData_step hstep
  | close flowKey reason =>
    cases hstep
    exact h.onFlowClose_step flowKey reason

end Wirerust.Dispatcher
