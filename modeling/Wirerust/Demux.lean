import Wirerust.Lib.Demux
import Wirerust.Survival

/-!
The dispatcher as a demultiplexer.

What the dispatcher does with a flow is settled by its data alone: the first of its chunks that
`classify` knows, if it is among the first that are looked at, decides for the rest of the flow
(`verdict`). `Routed` says that the two maps of the dispatcher are only a memory of this. So the
dispatcher is the six analyzers side by side, each with its own share of the inputs
(`dispatcher_demultiplexes`).
-/

namespace Wirerust.Demux

open Lib Wirerust.Analyzer Wirerust.Dispatcher Wirerust.Flow Wirerust.RunAnalyze Wirerust.Wiring

/-! ## Verdicts -/

/-- What a chunk says about its flow. -/
def answer (flowKey : FlowKey) (c : Chunk) : Option DispatchTarget :=
  if classify c.data flowKey = .none then none else some (classify c.data flowKey)

/-- The target of a flow, once there is one. -/
def verdict (budget : Nat) (flowKey : FlowKey) (cs : List Chunk) : Option DispatchTarget :=
  (settle (answer flowKey) budget cs).map fun target => target.getD .none

def remember (flowKey : FlowKey) (cs : List Chunk) : Input → List Chunk
  | .data c => if c.flowKey = flowKey then cs ++ [c] else cs
  | .close k _ => if k = flowKey then [] else cs

/-- The chunks of a flow since it was last closed. -/
def sinceClose (flowKey : FlowKey) (inputs : List Input) : List Chunk :=
  inputs.foldl (remember flowKey) []

theorem sinceClose_snoc (flowKey : FlowKey) (inputs : List Input) (i : Input) :
    sinceClose flowKey (inputs ++ [i]) = remember flowKey (sinceClose flowKey inputs) i :=
  List.foldl_concat _ _ _ _

/-- The analyzer that an input is for, given the inputs before it. -/
def fate (budget : Nat) (pre : List Input) : Input → DispatchTarget
  | .data c =>
    (verdict budget c.flowKey (sinceClose c.flowKey (pre ++ [.data c]))).getD .none
  | .close flowKey _ => (verdict budget flowKey (sinceClose flowKey pre)).getD .none

theorem sinceClose_own (c : Chunk) (inputs : List Input) :
    sinceClose c.flowKey (inputs ++ [.data c]) = sinceClose c.flowKey inputs ++ [c] := by
  rw [sinceClose_snoc, remember, if_pos rfl]

theorem fate_data (budget : Nat) (pre : List Input) (c : Chunk) : fate budget pre (.data c) =
    (verdict budget c.flowKey (sinceClose c.flowKey pre ++ [c])).getD .none := by
  rw [← sinceClose_own]
  rfl

/-- One chunk is looked at in any case. -/
def budgetOf (maxClassificationAttempts : UInt32) : Nat := max 1 maxClassificationAttempts.toNat

theorem answer_none {flowKey : FlowKey} {c : Chunk} :
    answer flowKey c = none ↔ classify c.data flowKey = .none := by
  unfold answer
  split
  · rename_i h
    exact ⟨fun _ => h, fun _ => rfl⟩
  · rename_i h
    exact ⟨fun h' => (by cases h'), fun h' => absurd h' h⟩

theorem answer_some {flowKey : FlowKey} {c : Chunk} (h : classify c.data flowKey ≠ .none) :
    answer flowKey c = some (classify c.data flowKey) := if_neg h

section Verdict

variable {budget : Nat} {flowKey : FlowKey} {cs : List Chunk}

theorem verdict_nil (h : 0 < budget) : verdict budget flowKey [] = none := by
  rw [verdict, settle_nil h]
  rfl

theorem verdict_snoc_of_some {target : DispatchTarget}
    (h : verdict budget flowKey cs = some target) (c : Chunk) :
    verdict budget flowKey (cs ++ [c]) = some target := by
  obtain ⟨r, hr, rfl⟩ := Option.map_eq_some_iff.mp h
  rw [verdict, settle_snoc_of_some hr]
  rfl

theorem verdict_eq_none (h : verdict budget flowKey cs = none) : cs.length < budget :=
  (settle_eq_none (Option.map_eq_none_iff.mp h)).1

theorem verdict_snoc_of_none (h : verdict budget flowKey cs = none) (c : Chunk) :
    verdict budget flowKey (cs ++ [c]) =
      if classify c.data flowKey ≠ .none ∨ budget ≤ cs.length + 1 then
        some (classify c.data flowKey)
      else none := by
  rw [verdict, settle_snoc_of_none (Option.map_eq_none_iff.mp h)]
  by_cases hclass : classify c.data flowKey = .none
  · rw [answer_none.mpr hclass, hclass]
    by_cases hlast : budget ≤ cs.length + 1
    · rw [if_pos (Or.inr hlast), if_pos (Or.inr hlast)]
      rfl
    · rw [if_neg (by simp [hlast]), if_neg (by simp [hlast])]
      rfl
  · rw [answer_some hclass, Option.isSome_some, if_pos (Or.inl rfl), if_pos (Or.inl hclass)]
    rfl

end Verdict

/-! ## The maps of the dispatcher -/

section Maps

variable {budget : Nat} {inputs : List Input} {routes routes' : SortedMap FlowKey DispatchTarget}
  {attempts attempts' : SortedMap FlowKey Nat}

/-- The routes are the verdicts, and the attempts count the chunks of flows without one. -/
structure Remembers (budget : Nat) (inputs : List Input)
    (routes : SortedMap FlowKey DispatchTarget) (attempts : SortedMap FlowKey Nat) : Prop where
  routes : ∀ k, routes.get? k = verdict budget k (sinceClose k inputs)
  attempts : ∀ k, (attempts.get? k).getD 0 =
    if verdict budget k (sinceClose k inputs) = none then (sinceClose k inputs).length else 0

theorem remembers_empty (h : 0 < budget) : Remembers budget [] .empty .empty where
  routes := fun _ => (verdict_nil h).symm
  attempts := fun k => by
    have hnone : verdict budget k (sinceClose k []) = none := verdict_nil h
    rw [if_pos hnone]
    rfl

/-- A chunk is written down at the key of its flow. -/
theorem Remembers.data (h : Remembers budget inputs routes attempts) {c : Chunk}
    {target : Option DispatchTarget}
    (htarget : verdict budget c.flowKey (sinceClose c.flowKey inputs ++ [c]) = target)
    (hroute : routes'.get? c.flowKey = target)
    (hattempt : (attempts'.get? c.flowKey).getD 0 =
      if target = none then (sinceClose c.flowKey inputs).length + 1 else 0)
    (hroutes : ∀ k, k ≠ c.flowKey → routes'.get? k = routes.get? k)
    (hattempts : ∀ k, k ≠ c.flowKey → attempts'.get? k = attempts.get? k) :
    Remembers budget (inputs ++ [.data c]) routes' attempts' := by
  have hother : ∀ k, k ≠ c.flowKey →
      sinceClose k (inputs ++ [.data c]) = sinceClose k inputs := by
    intro k hk
    rw [sinceClose_snoc, remember, if_neg (Ne.symm hk)]
  refine ⟨fun k => ?_, fun k => ?_⟩
  · by_cases hk : k = c.flowKey
    · rw [hk, sinceClose_own, htarget]
      exact hroute
    · rw [hother k hk, hroutes k hk]
      exact h.routes k
  · by_cases hk : k = c.flowKey
    · rw [hk, sinceClose_own, htarget, List.length_append]
      exact hattempt
    · rw [hother k hk, hattempts k hk]
      exact h.attempts k

theorem Remembers.close (hpos : 0 < budget) (h : Remembers budget inputs routes attempts)
    (flowKey : FlowKey) (reason : CloseReason) :
    Remembers budget (inputs ++ [.close flowKey reason]) (routes.erase flowKey)
      (attempts.erase flowKey) := by
  have hown : sinceClose flowKey (inputs ++ [.close flowKey reason]) = [] := by
    rw [sinceClose_snoc, remember, if_pos rfl]
  have hother : ∀ k, k ≠ flowKey →
      sinceClose k (inputs ++ [.close flowKey reason]) = sinceClose k inputs := by
    intro k hk
    rw [sinceClose_snoc, remember, if_neg (Ne.symm hk)]
  refine ⟨fun k => ?_, fun k => ?_⟩
  · by_cases hk : k = flowKey
    · rw [hk, hown, SortedMap.get?_erase_self, verdict_nil hpos]
    · rw [hother k hk, SortedMap.get?_erase_of_ne _ hk]
      exact h.routes k
  · by_cases hk : k = flowKey
    · rw [hk, hown, SortedMap.get?_erase_self, verdict_nil hpos, if_pos rfl]
      rfl
    · rw [hother k hk, SortedMap.get?_erase_of_ne _ hk]
      exact h.attempts k

end Maps

section Routes

variable {a : Analyzers} {budget : Nat} {inputs : List Input} {d d' : StreamDispatcher a}

structure Routed (budget : Nat) (inputs : List Input) (d : StreamDispatcher a) : Prop where
  any : d.anyConfigured = true
  max : budgetOf d.maxClassificationAttempts = budget
  maps : Remembers budget inputs d.routes d.classificationAttempts

theorem budgetOf_pos (max : UInt32) : 0 < budgetOf max := by
  unfold budgetOf
  omega

theorem bump32_of_lt {n : Nat} {max : UInt32} (h : n < budgetOf max) : bump32 n = n + 1 := by
  have hmax := max.toNat_lt
  unfold budgetOf at h
  unfold bump32 saturatingInc
  omega

theorem Routed.route (h : Routed budget inputs d) (c : Chunk) :
    (route d c).2 = fate budget inputs (.data c) ∧
      Remembers budget (inputs ++ [.data c]) (route d c).1.routes
        (route d c).1.classificationAttempts := by
  rw [fate_data]
  unfold Dispatcher.route
  cases hroute : d.routes.get? c.flowKey with
  | some cached =>
    have hcached := (h.maps.routes c.flowKey).symm.trans hroute
    have hverdict := verdict_snoc_of_some hcached c
    have hattempt := h.maps.attempts c.flowKey
    rw [hcached, if_neg (by simp)] at hattempt
    rw [hverdict]
    exact ⟨rfl, h.maps.data hverdict hroute (hattempt.trans (if_neg (by simp)).symm)
      (fun _ _ => rfl) fun _ _ => rfl⟩
  | none =>
    have hnone := (h.maps.routes c.flowKey).symm.trans hroute
    have hverdict := verdict_snoc_of_none hnone c
    have hlength : (d.classificationAttempts.get? c.flowKey).getD 0 =
        (sinceClose c.flowKey inputs).length := by
      rw [h.maps.attempts, if_pos hnone]
    have hcount : bump32 (sinceClose c.flowKey inputs).length =
        (sinceClose c.flowKey inputs).length + 1 :=
      bump32_of_lt (h.max ▸ verdict_eq_none hnone)
    -- The verdict is there, and the attempts are forgotten.
    have hsettled : ∀ target, verdict budget c.flowKey (sinceClose c.flowKey inputs ++ [c]) =
        some target → Remembers budget (inputs ++ [.data c])
          (d.routes.insert c.flowKey target) (d.classificationAttempts.erase c.flowKey) := by
      intro target htarget
      refine h.maps.data htarget (SortedMap.get?_insert_self _ _ _) ?_
        (fun k hk => SortedMap.get?_insert_of_ne _ _ hk)
        fun k hk => SortedMap.get?_erase_of_ne _ hk
      rw [SortedMap.get?_erase_self, if_neg (by simp)]
      rfl
    by_cases hclass : classify c.data c.flowKey = .none
    · rw [hclass] at hverdict
      simp only [if_pos hclass, hlength, hcount]
      have hspent : (sinceClose c.flowKey inputs).length + 1 ≥
          d.maxClassificationAttempts.toNat ↔
          budget ≤ (sinceClose c.flowKey inputs).length + 1 := by
        rw [← h.max, budgetOf]
        omega
      by_cases hlast : budget ≤ (sinceClose c.flowKey inputs).length + 1
      · rw [if_pos (Or.inr hlast)] at hverdict
        rw [if_pos (hspent.mpr hlast), hverdict]
        exact ⟨rfl, hsettled .none hverdict⟩
      · rw [if_neg (by simp [hlast])] at hverdict
        rw [if_neg fun hge => hlast (hspent.mp hge), hverdict]
        refine ⟨rfl, h.maps.data hverdict hroute ?_ (fun _ _ => rfl)
          fun k hk => SortedMap.get?_insert_of_ne _ _ hk⟩
        rw [SortedMap.get?_insert_self, if_pos rfl]
        rfl
    · rw [if_pos (Or.inl hclass)] at hverdict
      simp only [if_neg hclass]
      rw [hverdict]
      exact ⟨rfl, hsettled _ hverdict⟩

theorem Routed.onData (h : Routed budget inputs d) {c : Chunk} (hs : onData d c = .ok d') :
    Routed budget (inputs ++ [.data c]) d' := by
  have hconfigured := (onData_calls hs).1
  have hmax := (onInput_config (i := .data c) hs).1
  refine ⟨(CoverageGaps.anyConfigured_congr hconfigured).trans h.any, hmax ▸ h.max, ?_⟩
  rcases onData_cases hs with ⟨hnone, -⟩ | ⟨hkept, -⟩
  · rw [h.any] at hnone
    cases hnone
  · have hattempts : (record (Dispatcher.route d c).1 (Dispatcher.route d c).2
        c).classificationAttempts = (Dispatcher.route d c).1.classificationAttempts := by
      unfold record
      split <;> rfl
    rw [hkept.routes, hkept.attempts, record_routes, hattempts]
    exact (h.route c).2

theorem Routed.onFlowClose (h : Routed budget inputs d) (flowKey : FlowKey)
    (reason : CloseReason) :
    Routed budget (inputs ++ [.close flowKey reason]) (onFlowClose d flowKey reason) := by
  have hclosed := onFlowClose_closed d flowKey reason
  refine ⟨(CoverageGaps.anyConfigured_congr hclosed.configured).trans h.any,
    hclosed.max ▸ h.max, ?_⟩
  rw [hclosed.routes, hclosed.attempts]
  exact h.maps.close (h.max ▸ budgetOf_pos _) flowKey reason

theorem Routed.onInput (h : Routed budget inputs d) {i : Input} (hs : onInput d i = .ok d') :
    Routed budget (inputs ++ [i]) d' := by
  cases i with
  | data c => exact h.onData hs
  | close flowKey reason =>
    cases hs
    exact h.onFlowClose flowKey reason

end Routes

/-! ## Six analyzers side by side -/

/-- The state of the analyzer of a target. -/
abbrev State : DispatchTarget → Type
  | .http => Http.HttpAnalyzer
  | .tls => Tls.TlsAnalyzer
  | .modbus => Modbus.ModbusAnalyzer
  | .dnp3 => Dnp3.Dnp3Analyzer
  | .enip => Enip.EnipAnalyzer
  | .iec104 => Iec104.Iec104Analyzer
  | .none => Unit

def analyzerOf (libs : Libraries) : (target : DispatchTarget) → Streaming (State target)
  | .http => http libs.httparse
  | .tls => tls libs.tlsParser
  | .modbus => modbus
  | .dnp3 => dnp3 libs.pendingOrder
  | .enip => enip
  | .iec104 => iec104
  | .none => ⟨fun s _ => .ok s, fun s _ => s⟩

/-- An analyzer that may not be there. -/
def slotStep {σ : Type} (m : Streaming σ) (slot : Option σ) (i : Input) : Checked (Option σ) :=
  match slot with
  | some s => (m.step s i).map some
  | none => .ok none

section Slots

variable {libs : Libraries} {d d' : StreamDispatcher (analyzers libs)}

def slots (d : StreamDispatcher (analyzers libs)) : (target : DispatchTarget) →
    Option (State target)
  | .http => d.http.map (stateOf (m := http libs.httparse))
  | .tls => d.tls.map (stateOf (m := tls libs.tlsParser))
  | .modbus => d.modbus
  | .dnp3 => d.dnp3
  | .enip => d.enip.map (stateOf (m := enip))
  | .iec104 => d.iec104.map (stateOf (m := iec104))
  | .none => none

abbrev sideBySide (libs : Libraries) :=
  family (fun target => slotStep (analyzerOf libs target))

theorem slots_of_same (h : SameAnalyzers d d') : slots d' = slots d := by
  funext target
  cases target with
  | http => simp only [slots, h.http]
  | tls => simp only [slots, h.tls]
  | modbus => exact h.modbus
  | dnp3 => exact h.dnp3
  | enip => simp only [slots, h.enip]
  | iec104 => simp only [slots, h.iec104]
  | none => rfl

theorem slots_isSome (d : StreamDispatcher (analyzers libs)) (target : DispatchTarget) :
    (slots d target).isSome = d.configured target := by
  cases target with
  | http => exact Option.isSome_map
  | tls => exact Option.isSome_map
  | enip => exact Option.isSome_map
  | iec104 => exact Option.isSome_map
  | _ => rfl

theorem slots_of_idle (h : d.anyConfigured = false) (target : DispatchTarget) :
    slots d target = none := by
  rw [← Option.not_isSome_iff_eq_none, slots_isSome, configured_of_not_any h]
  exact Bool.false_ne_true

/-- Nothing happens to an analyzer that is not there. -/
theorem sideBySide_none {target : DispatchTarget} (h : slots d target = none) (i : Input) :
    sideBySide libs (slots d) (target, i) = .ok (slots d) := by
  change (slotStep (analyzerOf libs target) (slots d target) i).map
    (Function.update (slots d) target) = _
  rw [h]
  exact congrArg Except.ok ((congrArg _ h.symm).trans (Function.update_eq_self target (slots d)))

/-- One slot is another. -/
theorem slots_update {target : DispatchTarget} (h : ∀ t, t ≠ target → slots d' t = slots d t) :
    slots d' = Function.update (slots d) target (slots d' target) := by
  funext t
  by_cases ht : t = target
  · subst ht
    rw [Function.update_self]
  · rw [Function.update_of_ne ht]
    exact h t ht

theorem sideBySide_ok {target : DispatchTarget} {i : Input}
    (hother : ∀ t, t ≠ target → slots d' t = slots d t)
    (hown : slotStep (analyzerOf libs target) (slots d target) i = .ok (slots d' target)) :
    sideBySide libs (slots d) (target, i) = .ok (slots d') := by
  change (slotStep (analyzerOf libs target) (slots d target) i).map
    (Function.update (slots d) target) = _
  rw [hown]
  exact congrArg Except.ok (slots_update hother).symm

/-- A call of one analyzer. -/
theorem sideBySide_call {target : DispatchTarget} {i : Input} {α : Type} {x : Checked α}
    {put : α → StreamDispatcher (analyzers libs)}
    (hother : ∀ y t, t ≠ target → slots (put y) t = slots d t)
    (hown : slotStep (analyzerOf libs target) (slots d target) i =
      x.map fun y => slots (put y) target) :
    (x >>= fun y => .ok (put y)).map slots = sideBySide libs (slots d) (target, i) := by
  cases x with
  | ok y => exact (sideBySide_ok (hother y) hown).symm
  | error e =>
    change _ = (slotStep (analyzerOf libs target) (slots d target) i).map
      (Function.update (slots d) target)
    rw [hown]
    rfl

theorem slotStep_table {σ : Type} {m : Streaming σ} (slot : Option (Table m.code)) (c : Chunk) :
    slotStep m (slot.map stateOf) (.data c) =
      (feed (fun t => t.onData c) slot).map fun slot => slot.map stateOf := by
  cases slot with
  | none => rfl
  | some t =>
    change (m.onData (stateOf t) c).map some = _
    rcases table_onData_cases t c with ⟨e, hs, ht⟩ | ⟨s, hs, ht⟩
    · rw [hs, feed, ht]
      rfl
    · rw [hs, feed, ht]
      rfl

theorem slotStep_feed {σ : Type} (m : Streaming σ) (slot : Option σ) (c : Chunk) :
    slotStep m slot (.data c) = (feed (fun s => m.onData s c) slot).map fun slot => slot := by
  cases slot with
  | none => rfl
  | some s =>
    change (m.onData s c).map some = (m.onData s c >>= fun s => .ok (some s)).map _
    cases m.onData s c with
    | error e => rfl
    | ok s' => rfl

theorem deliver_slots (d : StreamDispatcher (analyzers libs)) (target : DispatchTarget)
    (c : Chunk) : (deliver d target c).map slots = sideBySide libs (slots d) (target, .data c) := by
  cases target
  case none => exact (sideBySide_none rfl _).symm
  all_goals
    refine sideBySide_call (fun y t ht => by cases t <;> first | rfl | exact absurd rfl ht) ?_
  case http => exact slotStep_table d.http c
  case tls => exact slotStep_table d.tls c
  case modbus => exact slotStep_feed modbus d.modbus c
  case dnp3 => exact slotStep_feed (dnp3 libs.pendingOrder) d.dnp3 c
  case enip => exact slotStep_table d.enip c
  case iec104 => exact slotStep_table d.iec104 c

/-- What the analyzers keep is no concern here. -/
def anything : Invariants where
  http := fun _ _ => True
  tls := fun _ _ => True
  modbus := fun _ _ => True
  dnp3 := fun _ _ => True
  enip := fun _ _ => True
  iec104 := fun _ _ => True

theorem lasts_anything {σ : Type} (m : Streaming σ) :
    Lasts 0 m.step inputBytes fun _ _ => True where
  mono := fun _ _ _ _ _ => trivial
  step := fun _ _ _ _ => ⟨fun h => absurd h (Nat.not_lt_zero _), fun _ _ => trivial⟩

theorem anything_last (libs : Libraries) : anything.Last libs 0 where
  http := lasts_anything _
  tls := lasts_anything _
  modbus := lasts_anything _
  dnp3 := lasts_anything _
  enip := lasts_anything _
  iec104 := lasts_anything _

theorem onData_slots {budget : Nat} {pre : List Input} (d : StreamDispatcher (analyzers libs))
    (h : d.anyConfigured = true → Routed budget pre d) (c : Chunk) :
    (onData d c).map slots =
      sideBySide libs (slots d) (fate budget pre (.data c), .data c) := by
  unfold Dispatcher.onData
  cases hany : d.anyConfigured with
  | true =>
    rw [← ((h hany).route c).1, if_neg (by simp)]
    have hsame : slots (record (Dispatcher.route d c).1 (Dispatcher.route d c).2 c) = slots d :=
      (slots_of_same (sameAnalyzers_record _ _ c)).trans
        (slots_of_same (sameAnalyzers_route d c))
    exact hsame ▸ deliver_slots _ _ c
  | false =>
    rw [if_pos (by simp), sideBySide_none (slots_of_idle hany _)]
    rfl

theorem slotStep_close {σ ν : Type} {m : Streaming σ} {flows : σ → SortedMap FlowKey ν}
    (hm : m.Keyed flows) {I : Nat → σ → Prop} {n : Nat} {slot : Option (Table m.code)}
    (h : HeldTable m flows I n slot) (flowKey : FlowKey) (reason : CloseReason) :
    slotStep m (slot.map stateOf) (.close flowKey reason) =
      .ok ((slot.map fun t => t.onFlowClose flowKey).map stateOf) := by
  cases slot with
  | none => rfl
  | some t =>
    change Except.ok (some (m.onFlowClose (stateOf t) flowKey)) = _
    rw [← (h t rfl).1.stateOf_onFlowClose hm]
    rfl

theorem slotStep_retire {σ : Type} (m : Streaming σ) (slot : Option σ) (flowKey : FlowKey)
    (reason : CloseReason) : slotStep m slot (.close flowKey reason) =
      .ok (slot.map fun s => m.onFlowClose s flowKey) := by
  cases slot with
  | none => rfl
  | some s => rfl

theorem retireFlow_slots {n : Nat} (h : anything.Hold n d) (target : DispatchTarget)
    (flowKey : FlowKey) (reason : CloseReason) :
    sideBySide libs (slots d) (target, .close flowKey reason) =
      .ok (slots (retireFlow d target flowKey)) := by
  cases target
  case none => exact sideBySide_none rfl _
  all_goals
    refine sideBySide_ok (fun t ht => by cases t <;> first | rfl | exact absurd rfl ht) ?_
  case http => exact slotStep_close (http_keyed _) h.http flowKey reason
  case tls => exact slotStep_close (tls_keyed _) h.tls flowKey reason
  case modbus => exact slotStep_retire modbus d.modbus flowKey reason
  case dnp3 => exact slotStep_retire (dnp3 libs.pendingOrder) d.dnp3 flowKey reason
  case enip => exact slotStep_close enip_keyed h.enip flowKey reason
  case iec104 => exact slotStep_close iec104_keyed h.iec104 flowKey reason

/-- A close, for the analyzer that the flow was routed to. -/
theorem onFlowClose_slots {n : Nat} (hhold : anything.Hold n d) {target : DispatchTarget}
    {flowKey : FlowKey} (htarget : (d.routes.get? flowKey).getD .none = target)
    (reason : CloseReason) :
    sideBySide libs (slots d) (target, .close flowKey reason) =
      .ok (slots (onFlowClose d flowKey reason)) := by
  have hforget : slots (forget d flowKey) = slots d :=
    slots_of_same ⟨rfl, rfl, rfl, rfl, rfl, rfl⟩
  rcases onFlowClose_cases d flowKey reason with ⟨hroute, heq⟩ | ⟨routed, hroute, heq⟩
  · have hnone : target = .none := by
      rcases hroute with hroute | hroute
      · rw [← htarget, hroute]
        rfl
      · rw [← htarget, hroute]
        rfl
    rw [heq, slots_of_same (sameAnalyzers_countUnclassified _ flowKey), hforget, hnone]
    exact sideBySide_none rfl _
  · rw [hroute, Option.getD_some] at htarget
    rw [heq, ← htarget, ← hforget]
    have hforgotten : anything.Hold n (forget d flowKey) :=
      hhold.of_same ⟨rfl, rfl, rfl, rfl, rfl, rfl⟩
    exact retireFlow_slots hforgotten routed flowKey reason

/-! ## All runs -/

/-- What is known of the dispatcher after the inputs `pre`. -/
structure Demuxed (budget : Nat) (pre : List Input) (d : StreamDispatcher (analyzers libs)) :
    Prop where
  hold : ∃ n, anything.Hold n d
  routed : d.anyConfigured = true → Routed budget pre d

variable {budget : Nat} {pre : List Input} {i : Input}

theorem Demuxed.slots (h : Demuxed budget pre d) (i : Input) :
    (onInput d i).map Demux.slots =
      sideBySide libs (Demux.slots d) (fate budget pre i, i) := by
  cases i with
  | data c => exact onData_slots d h.routed c
  | close flowKey reason =>
    obtain ⟨n, hhold⟩ := h.hold
    cases hany : d.anyConfigured with
    | true =>
      have hroute := (h.routed hany).maps.routes flowKey
      exact (onFlowClose_slots hhold (congrArg (fun r => r.getD .none) hroute) reason).symm
    | false =>
      have hclosed := onFlowClose_closed d flowKey reason
      have hidle : (onFlowClose d flowKey reason).anyConfigured = false :=
        (CoverageGaps.anyConfigured_congr hclosed.configured).trans hany
      rw [sideBySide_none (slots_of_idle hany _)]
      refine congrArg Except.ok (funext fun target => ?_)
      rw [slots_of_idle hidle, slots_of_idle hany]

theorem Demuxed.onInput (h : Demuxed budget pre d) (hs : onInput d i = .ok d') :
    Demuxed budget (pre ++ [i]) d' := by
  have hany : d'.anyConfigured = d.anyConfigured := by
    refine CoverageGaps.anyConfigured_congr ?_
    cases i with
    | data c => exact (onData_calls hs).1
    | close flowKey reason =>
      cases hs
      exact (onFlowClose_closed d flowKey reason).configured
  refine ⟨?_, fun h' => (h.routed (hany.symm.trans h')).onInput hs⟩
  obtain ⟨n, hhold⟩ := h.hold
  cases i with
  | data c => exact ⟨_, (hhold.onData (anything_last libs) c).2 d' hs⟩
  | close flowKey reason =>
    cases hs
    exact ⟨n, hhold.onFlowClose (anything_last libs) flowKey reason⟩

end Slots

/-- The budget of `run_analyze`. -/
def defaultBudget : Nat := budgetOf defaultMaxClassificationAttempts

section Start

variable (o : Options) (libs : Libraries)

/-- The analyzers before their first input. -/
def startOf : (target : DispatchTarget) → Option (State target)
  | .http => o.given o.enableHttp .new
  | .tls => o.given o.enableTls .new
  | .modbus => o.given o.enableModbus
      (.new o.modbusWriteBurstThreshold o.modbusWriteSustainedThreshold)
  | .dnp3 => o.given o.enableDnp3 (.new o.dnp3DirectOperateThreshold)
  | .enip => o.given o.enableEnip (.new o.enipWriteBurstThreshold o.enipErrorBurstThreshold)
  | .iec104 => o.given o.enableIec104 .new
  | .none => none

theorem given_map {α β : Type} (enabled : Bool) (analyzer : α) (f : α → β) :
    (o.given enabled analyzer).map f = o.given enabled (f analyzer) := by
  unfold Options.given
  split
  · rfl
  · rfl

theorem slots_setup : slots (o.setup libs).dispatcher = startOf o := by
  funext target
  cases target with
  | modbus => exact given_map o o.enableModbus _ _
  | dnp3 => exact given_map o o.enableDnp3 _ _
  | none => rfl
  | http =>
    exact (congrArg _ (given_map o o.enableHttp _ _)).trans (given_map o o.enableHttp _ _)
  | tls => exact (congrArg _ (given_map o o.enableTls _ _)).trans (given_map o o.enableTls _ _)
  | enip => exact (congrArg _ (given_map o o.enableEnip _ _)).trans (given_map o o.enableEnip _ _)
  | iec104 =>
    exact (congrArg _ (given_map o o.enableIec104 _ _)).trans (given_map o o.enableIec104 _ _)

theorem demuxed_setup : Demuxed defaultBudget [] (o.setup libs).dispatcher where
  hold := ⟨0, {
    http := Survival.heldTable_given rfl trivial
    tls := Survival.heldTable_given rfl trivial
    modbus := fun _ _ => trivial
    dnp3 := fun _ _ => trivial
    enip := Survival.heldTable_given rfl trivial
    iec104 := Survival.heldTable_given rfl trivial }⟩
  routed := fun h => ⟨h, rfl, remembers_empty (budgetOf_pos _)⟩

end Start

/-- The share that an analyzer has of the inputs. -/
def shareOf (target : DispatchTarget) (inputs : List Input) : List Input :=
  share target (tag (fate defaultBudget) [] inputs)

/-- In every run each analyzer is in the state to which its own share of the inputs brings it, and
the dispatcher comes back if every one of the analyzers does. What the shares are depends on the
inputs only. -/
theorem dispatcher_demultiplexes (libs : Libraries) (o : Options) (inputs : List Input) :
    ((∃ d, run onInput (o.setup libs).dispatcher inputs = .ok d) ↔
        ∀ target, ∃ slot, run (slotStep (analyzerOf libs target)) (startOf o target)
          (shareOf target inputs) = .ok slot) ∧
      ∀ d, run onInput (o.setup libs).dispatcher inputs = .ok d →
        ∀ target, run (slotStep (analyzerOf libs target)) (startOf o target)
          (shareOf target inputs) = .ok (slots d target) := by
  have hrun : (run onInput (o.setup libs).dispatcher inputs).map slots =
      run (sideBySide libs) (startOf o) (tag (fate defaultBudget) [] inputs) := by
    rw [← slots_setup o libs]
    exact run_tagged (I := Demuxed defaultBudget) (fun _ _ i h => h.slots i)
      (fun _ _ _ _ h hs => h.onInput hs) inputs (demuxed_setup o libs)
  constructor
  · refine Iff.trans ?_ (family_returns_iff _ _)
    rw [← hrun]
    constructor
    · rintro ⟨d, hd⟩
      exact ⟨slots d, by rw [hd]; rfl⟩
    · rintro ⟨s, hs⟩
      cases hd : run onInput (o.setup libs).dispatcher inputs with
      | ok d => exact ⟨d, rfl⟩
      | error e =>
        rw [hd] at hs
        cases hs
  · intro d hd
    refine (run_family _ _ _).mp ?_
    rw [← hrun, hd]
    rfl

end Wirerust.Demux
