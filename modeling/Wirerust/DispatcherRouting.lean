import Wirerust.DispatcherSteps
import Wirerust.Analyzer.Dnp3Carry

/-!
Irrevocable routing, over every run of the dispatcher.

`run_lifetime` follows one flow between two closes: its calls are its chunks from some chunk on,
all to one analyzer. `Routing` lists the promises, and `run_routes` shows that every run keeps
them.
-/

namespace Wirerust.Dispatcher

open Lib Wirerust.Flow Wirerust.Analyzer

variable {a : Analyzers}

/-! ## One lifetime -/

def Input.closes (flowKey : FlowKey) : Input → Bool
  | .data _ => false
  | .close k _ => k = flowKey

/-- The chunks of one flow. -/
def chunksOf (flowKey : FlowKey) (inputs : List Input) : List Chunk :=
  inputs.filterMap fun
    | .data c => if c.flowKey = flowKey then some c else none
    | .close _ _ => none

/-- The calls for one flow, with their analyzers. -/
def callsOf (flowKey : FlowKey) (s : StreamDispatcher a) : List (DispatchTarget × Chunk) :=
  s.calls.filter fun call => call.2.flowKey = flowKey

/-- The call of an analyzer, if it is there. -/
def callTo (s : StreamDispatcher a) (target : DispatchTarget) (c : Chunk) :
    List (DispatchTarget × Chunk) :=
  if s.configured target then [(target, c)] else []

theorem record_calls (s : StreamDispatcher a) (target : DispatchTarget) (c : Chunk) :
    (record s target c).calls = s.calls ++ callTo s target c ∧
      ∀ t, (record s target c).configured t = s.configured t := by
  unfold record callTo
  split
  · exact ⟨rfl, fun t => by cases t <;> rfl⟩
  · exact ⟨(List.append_nil _).symm, fun _ => rfl⟩

theorem route_rest (s : StreamDispatcher a) (c : Chunk) :
    (route s c).1.calls = s.calls ∧ (∀ t, (route s c).1.configured t = s.configured t) ∧
      ∀ k, k ≠ c.flowKey → (route s c).1.routes.get? k = s.routes.get? k := by
  rcases route_cases s c with ⟨target, -, hroute⟩ | ⟨-, target, hroute⟩ | ⟨-, count, -, hroute⟩
  · rw [hroute]
    exact ⟨rfl, fun _ => rfl, fun _ _ => rfl⟩
  · rw [hroute]
    exact ⟨rfl, fun t => by cases t <;> rfl, fun k hk => SortedMap.get?_insert_of_ne _ _ hk⟩
  · rw [hroute]
    exact ⟨rfl, fun t => by cases t <;> rfl, fun _ _ => rfl⟩

theorem record_route_config (s : StreamDispatcher a) (c : Chunk) :
    (record (route s c).1 (route s c).2 c).maxClassificationAttempts =
        s.maxClassificationAttempts ∧
      (record (route s c).1 (route s c).2 c).coverageGapsEnabled = s.coverageGapsEnabled := by
  rcases route_cases s c with ⟨target, -, hroute⟩ | ⟨-, target, hroute⟩ | ⟨-, count, -, hroute⟩
  all_goals
    rw [hroute, record]
    split
    · exact ⟨rfl, rfl⟩
    · exact ⟨rfl, rfl⟩

/-- What a call does for its own flow: it goes to the cached target, or to one that is cached from
now on, or to none. -/
inductive Goes (flowKey : FlowKey) (s s' : StreamDispatcher a) : DispatchTarget → Prop
  | cached (target : DispatchTarget) (h : s.routes.get? flowKey = some target)
      (h' : s'.routes.get? flowKey = some target) : Goes flowKey s s' target
  | found (target : DispatchTarget) (h : s.routes.get? flowKey = none)
      (h' : s'.routes.get? flowKey = some target) : Goes flowKey s s' target
  | later (h : s.routes.get? flowKey = none) (h' : s'.routes.get? flowKey = none) :
      Goes flowKey s s' .none

theorem Goes.of_cached {flowKey : FlowKey} {s s' : StreamDispatcher a}
    {target cached : DispatchTarget} (h : Goes flowKey s s' target)
    (hcached : s.routes.get? flowKey = some cached) :
    target = cached ∧ s'.routes.get? flowKey = some cached := by
  cases h with
  | cached _ h h' =>
    rw [hcached] at h
    cases h
    exact ⟨rfl, h'⟩
  | found _ h _ =>
    rw [hcached] at h
    cases h
  | later h _ =>
    rw [hcached] at h
    cases h

theorem onData_calls {s s' : StreamDispatcher a} {c : Chunk} (h : onData s c = .ok s') :
    (∀ t, s'.configured t = s.configured t) ∧
    (∀ k, k ≠ c.flowKey → s'.routes.get? k = s.routes.get? k) ∧
    ∃ target, s'.calls = s.calls ++ callTo s target c ∧ Goes c.flowKey s s' target := by
  rcases onData_cases h with ⟨hnone, rfl⟩ | ⟨hkept, -⟩
  · refine ⟨fun _ => rfl, fun _ _ => rfl, ?_⟩
    have hcalls : ∀ target, callTo s' target c = [] := fun target => by
      simp [callTo, configured_of_not_any hnone]
    cases hroute : s'.routes.get? c.flowKey with
    | none => exact ⟨.none, by rw [hcalls, List.append_nil], .later hroute hroute⟩
    | some target => exact ⟨target, by rw [hcalls, List.append_nil], .cached target hroute hroute⟩
  · obtain ⟨hcalls, hconf⟩ := record_calls (route s c).1 (route s c).2 c
    obtain ⟨hcalls₁, hconf₁, hother⟩ := route_rest s c
    have hroutes : s'.routes = (route s c).1.routes := hkept.routes.trans (record_routes _ _ c)
    refine ⟨fun t => by rw [hkept.configured, hconf, hconf₁],
      fun k hk => by rw [hroutes, hother k hk], (route s c).2, ?_, ?_⟩
    · rw [hkept.calls, hcalls, hcalls₁, callTo, hconf₁, callTo]
    · rcases route_cases s c with ⟨target, hcached, hroute⟩ | ⟨hnone, target, hroute⟩ |
        ⟨hnone, count, -, hroute⟩
      · rw [hroute] at hroutes ⊢
        exact .cached target hcached (by rw [hroutes, hcached])
      · rw [hroute] at hroutes ⊢
        exact .found target hnone (by rw [hroutes]; exact SortedMap.get?_insert_self _ _ _)
      · rw [hroute] at hroutes ⊢
        exact .later hnone (by rw [hroutes, hnone])

theorem callTo_congr {s s' : StreamDispatcher a} (h : ∀ t, s'.configured t = s.configured t)
    (target : DispatchTarget) : callTo s' target = callTo s target := by
  funext c
  rw [callTo, h, callTo]

/-- The analyzer of a target gets all the chunks, or there is none. -/
theorem flatMap_callTo (s : StreamDispatcher a) (target : DispatchTarget) (cs : List Chunk) :
    ∃ n, cs.flatMap (callTo s target) = (cs.drop n).map fun c => (target, c) := by
  unfold callTo
  split
  · exact ⟨0, by rw [List.drop_zero, List.map_eq_flatMap]⟩
  · exact ⟨cs.length, by simp⟩

theorem callsOf_append (flowKey : FlowKey) {s s' : StreamDispatcher a} {target : DispatchTarget}
    {c : Chunk} (h : s'.calls = s.calls ++ callTo s target c) :
    callsOf flowKey s' = callsOf flowKey s ++
      if c.flowKey = flowKey then callTo s target c else [] := by
  rw [callsOf, h, List.filter_append, callsOf]
  congr 1
  unfold callTo
  by_cases hkey : c.flowKey = flowKey
  · rw [if_pos hkey]
    split
    · simp [hkey]
    · rfl
  · rw [if_neg hkey]
    split
    · simp [hkey]
    · rfl

/-- What an input does that does not close the flow. -/
theorem onInput_flow {s s' : StreamDispatcher a} {i : Input} {flowKey : FlowKey}
    (hopen : i.closes flowKey = false) (h : onInput s i = .ok s') :
    (∀ t, s'.configured t = s.configured t) ∧
    ((chunksOf flowKey [i] = [] ∧ s'.routes.get? flowKey = s.routes.get? flowKey ∧
        callsOf flowKey s' = callsOf flowKey s) ∨
      ∃ c target, chunksOf flowKey [i] = [c] ∧ Goes flowKey s s' target ∧
        callsOf flowKey s' = callsOf flowKey s ++ callTo s target c) := by
  cases i with
  | close k reason =>
    cases h
    have hclosed := onFlowClose_closed s k reason
    have hne : flowKey ≠ k := fun heq => by simp [Input.closes, heq] at hopen
    refine ⟨hclosed.configured, .inl ⟨rfl, ?_, ?_⟩⟩
    · rw [hclosed.routes, SortedMap.get?_erase_of_ne _ hne]
    · rw [callsOf, hclosed.calls, callsOf]
  | data c =>
    obtain ⟨hconf, hother, target, hcalls, hgoes⟩ := onData_calls h
    have happend := callsOf_append flowKey hcalls
    refine ⟨hconf, ?_⟩
    by_cases hkey : c.flowKey = flowKey
    · rw [if_pos hkey] at happend
      refine .inr ⟨c, target, by simp [chunksOf, hkey], hkey ▸ hgoes, happend⟩
    · rw [if_neg hkey, List.append_nil] at happend
      exact .inl ⟨by simp [chunksOf, hkey], hother flowKey (Ne.symm hkey), happend⟩

theorem chunksOf_cons (flowKey : FlowKey) (i : Input) (l : List Input) :
    chunksOf flowKey (i :: l) = chunksOf flowKey [i] ++ chunksOf flowKey l := by
  simp only [chunksOf, ← List.filterMap_append, List.singleton_append]

/-- A cached target stays, and gets every chunk. -/
theorem run_cached {flowKey : FlowKey} {target : DispatchTarget} (l : List Input)
    (hopen : ∀ i ∈ l, i.closes flowKey = false) {s s' : StreamDispatcher a}
    (hcached : s.routes.get? flowKey = some target) (hrun : run onInput s l = .ok s') :
    s'.routes.get? flowKey = some target ∧
      callsOf flowKey s' = callsOf flowKey s ++ (chunksOf flowKey l).flatMap (callTo s target) := by
  induction l generalizing s with
  | nil =>
    cases hrun
    exact ⟨hcached, (List.append_nil _).symm⟩
  | cons i l ih =>
    obtain ⟨s₁, hstep, hrest⟩ := bind_eq_ok.mp hrun
    obtain ⟨hconf, hflow⟩ := onInput_flow (hopen i (by simp)) hstep
    have hsame := callTo_congr hconf target
    have hopen' : ∀ j ∈ l, j.closes flowKey = false := fun j hj => hopen j (by simp [hj])
    rw [chunksOf_cons]
    rcases hflow with ⟨hchunks, hroute, hcalls⟩ | ⟨c, t, hchunks, hgoes, hcalls⟩
    · obtain ⟨hend, hmore⟩ := ih hopen' (hroute.trans hcached) hrest
      refine ⟨hend, ?_⟩
      rw [hmore, hcalls, hsame, hchunks, List.nil_append]
    · obtain ⟨rfl, hroute⟩ := hgoes.of_cached hcached
      obtain ⟨hend, hmore⟩ := ih hopen' hroute hrest
      refine ⟨hend, ?_⟩
      rw [hmore, hcalls, hsame, hchunks, List.flatMap_append, List.flatMap_singleton,
        List.append_assoc]

/-- The calls for a flow that is not closed: some first chunks are passed over, and all later ones
go to one analyzer. -/
theorem run_lifetime {flowKey : FlowKey} (l : List Input)
    (hopen : ∀ i ∈ l, i.closes flowKey = false) {s s' : StreamDispatcher a}
    (hrun : run onInput s l = .ok s') :
    ∃ target n, callsOf flowKey s' = callsOf flowKey s ++
      ((chunksOf flowKey l).drop n).map fun c => (target, c) := by
  induction l generalizing s with
  | nil =>
    cases hrun
    exact ⟨.none, 0, (List.append_nil _).symm⟩
  | cons i l ih =>
    have hopen' : ∀ j ∈ l, j.closes flowKey = false := fun j hj => hopen j (by simp [hj])
    obtain ⟨s₁, hstep, hrest⟩ := bind_eq_ok.mp hrun
    obtain ⟨hconf, hflow⟩ := onInput_flow (hopen i (by simp)) hstep
    rw [chunksOf_cons]
    rcases hflow with ⟨hchunks, -, hcalls⟩ | ⟨c, t, hchunks, hgoes, hcalls⟩
    · obtain ⟨target, n, hmore⟩ := ih hopen' hrest
      exact ⟨target, n, by rw [hmore, hcalls, hchunks, List.nil_append]⟩
    · have hrouted : s₁.routes.get? flowKey = some t → ∃ n, callsOf flowKey s' =
          callsOf flowKey s ++ ((chunksOf flowKey [i] ++ chunksOf flowKey l).drop n).map
            fun c => (t, c) := by
        intro hroute
        obtain ⟨n, hn⟩ := flatMap_callTo s t (chunksOf flowKey [i] ++ chunksOf flowKey l)
        refine ⟨n, ?_⟩
        rw [(run_cached l hopen' hroute hrest).2, hcalls, callTo_congr hconf, ← hn, hchunks,
          List.flatMap_append, List.flatMap_singleton, List.append_assoc]
      cases hgoes with
      | cached _ _ h' => exact ⟨t, hrouted h'⟩
      | found _ _ h' => exact ⟨t, hrouted h'⟩
      | later _ _ =>
        obtain ⟨target, n, hmore⟩ := ih hopen' hrest
        refine ⟨target, n + 1, ?_⟩
        have hnone : callTo s .none c = [] := rfl
        rw [hmore, hcalls, hnone, List.append_nil, hchunks, List.singleton_append,
          List.drop_succ_cons]

/-! ## Every run -/

/-- The analyzers a dispatcher is made with, by what they have before their first flow. -/
structure Setup (a : Analyzers) where
  http : Option a.http.Shared
  tls : Option a.tls.Shared
  modbus : Option (UInt32 × UInt32)
  dnp3 : Option UInt32
  enip : Option a.enip.Shared
  iec104 : Option a.iec104.Shared
  maxClassificationAttempts : UInt32
  coverageGaps : Bool

def Setup.dispatcher (c : Setup a) : StreamDispatcher a :=
  ((StreamDispatcher.new (c.http.map Table.new) (c.tls.map Table.new)
    (c.modbus.map fun t => .new t.1 t.2) (c.dnp3.map .new) (c.enip.map Table.new)
    (c.iec104.map Table.new)).withMaxClassificationAttempts
      c.maxClassificationAttempts).withCoverageGaps c.coverageGaps

theorem map_empty {α β ν : Type} {make : α → β} {table : β → SortedMap FlowKey ν}
    (hmake : ∀ x, table (make x) = .empty) (slot : Option α) (k : FlowKey) :
    ((slot.map make).bind fun x => (table x).get? k).isSome = false := by
  cases slot with
  | none => rfl
  | some x =>
    rw [Option.map_some, Option.bind_some, hmake, SortedMap.get?_empty, Option.isSome_none]

theorem Setup.holds_dispatcher (c : Setup a) (target : DispatchTarget) (k : FlowKey) :
    c.dispatcher.holds target k = false := by
  cases target with
  | http => exact map_empty (fun _ => rfl) c.http k
  | tls => exact map_empty (fun _ => rfl) c.tls k
  | modbus => exact map_empty (fun _ => rfl) c.modbus k
  | dnp3 => exact map_empty (fun _ => rfl) c.dnp3 k
  | enip => exact map_empty (fun _ => rfl) c.enip k
  | iec104 => exact map_empty (fun _ => rfl) c.iec104 k
  | none => rfl

theorem Setup.consistent (c : Setup a) : Consistent c.dispatcher where
  disjoint := fun _ => .inl rfl
  budget := fun _ _ h => by cases h
  tables := fun target k h => by
    rw [c.holds_dispatcher target k] at h
    cases h
  ports := fun _ _ => rfl

/-- What is promised of a dispatcher that has been given `inputs` and is now in the state `s`. -/
structure Routing (start : StreamDispatcher a) (inputs : List Input) (s : StreamDispatcher a) :
    Prop where
  exclusive : ∀ flowKey pre post, inputs = pre ++ post →
    (∀ i ∈ post, i.closes flowKey = false) → ∃ s₀ target n, run onInput start pre = .ok s₀ ∧
      callsOf flowKey s = callsOf flowKey s₀ ++
        ((chunksOf flowKey post).drop n).map fun c => (target, c)
  irrevocable : ∀ flowKey pre post s₀ target, inputs = pre ++ post →
    (∀ i ∈ post, i.closes flowKey = false) → run onInput start pre = .ok s₀ →
      s₀.routes.get? flowKey = some target → s.routes.get? flowKey = some target
  disjoint : ∀ flowKey, s.routes.get? flowKey = none ∨ s.classificationAttempts.get? flowKey = none
  budget : ∀ flowKey n, s.classificationAttempts.get? flowKey = some n →
    n < start.maxClassificationAttempts.toNat
  closed : ∀ flowKey reason pre, inputs = pre ++ [.close flowKey reason] →
    s.routes.get? flowKey = none ∧ s.classificationAttempts.get? flowKey = none ∧
      ∀ target, s.holds target flowKey = false
  ports : start.coverageGapsEnabled = true → s.unclassifiedFlows < 2 ^ 64 - 1 →
    portTotal s.unclassifiedPortCounts = s.unclassifiedFlows

theorem onInput_config {s s' : StreamDispatcher a} {i : Input} (h : onInput s i = .ok s') :
    s'.maxClassificationAttempts = s.maxClassificationAttempts ∧
      s'.coverageGapsEnabled = s.coverageGapsEnabled := by
  cases i with
  | data c =>
    rcases onData_cases h with ⟨-, rfl⟩ | ⟨hkept, -⟩
    · exact ⟨rfl, rfl⟩
    · rw [hkept.max, hkept.gaps]
      exact record_route_config s c
  | close flowKey reason =>
    cases h
    have hclosed := onFlowClose_closed s flowKey reason
    exact ⟨hclosed.max, hclosed.gaps⟩

theorem run_routes (setup : Setup a) (inputs : List Input) {s : StreamDispatcher a}
    (hrun : run onInput setup.dispatcher inputs = .ok s) : Routing setup.dispatcher inputs s := by
  have hcons : Consistent s :=
    run_keeps (fun _ _ _ hI hstep => hI.onInput_step hstep) setup.consistent hrun
  obtain ⟨hmax, hgaps⟩ := run_keeps
    (I := fun s' : StreamDispatcher a =>
      s'.maxClassificationAttempts = setup.dispatcher.maxClassificationAttempts ∧
        s'.coverageGapsEnabled = setup.dispatcher.coverageGapsEnabled)
    (fun _ _ _ hI hstep =>
      ⟨(onInput_config hstep).1.trans hI.1, (onInput_config hstep).2.trans hI.2⟩)
    ⟨rfl, rfl⟩ hrun
  refine ⟨?_, ?_, hcons.disjoint, fun k n hn => hmax ▸ hcons.budget k n hn, ?_,
    fun h => hcons.ports (hgaps.trans h)⟩
  · rintro flowKey pre post rfl hopen
    rw [run_append] at hrun
    obtain ⟨s₀, hpre, hpost⟩ := bind_eq_ok.mp hrun
    obtain ⟨target, n, hcalls⟩ := run_lifetime post hopen hpost
    exact ⟨s₀, target, n, hpre, hcalls⟩
  · rintro flowKey pre post s₀ target rfl hopen hpre hcached
    rw [run_append, hpre] at hrun
    exact (run_cached post hopen hcached hrun).1
  · rintro flowKey reason pre rfl
    rw [run_snoc] at hrun
    obtain ⟨s₀, -, hclose⟩ := bind_eq_ok.mp hrun
    cases hclose
    have hclosed := onFlowClose_closed s₀ flowKey reason
    have hroute : (onFlowClose s₀ flowKey reason).routes.get? flowKey = none := by
      rw [hclosed.routes, SortedMap.get?_erase_self]
    refine ⟨hroute, by rw [hclosed.attempts, SortedMap.get?_erase_self], fun target => ?_⟩
    cases hholds : (onFlowClose s₀ flowKey reason).holds target flowKey with
    | false => rfl
    | true =>
      rw [hcons.tables target flowKey hholds] at hroute
      cases hroute

/-- An analyzer that is left out. -/
def idle : TableAnalyzer := ⟨Unit, Unit, (), fun s e _ => .ok (s, e), fun s _ => s⟩

def modbusOnly : Setup ⟨idle, idle, idle, idle, Dnp3.keyOrder⟩ where
  http := none
  tls := none
  modbus := some (20, 10)
  dnp3 := none
  enip := none
  iec104 := none
  maxClassificationAttempts := 1
  coverageGaps := true

theorem run_routes_modbus :
    let inputs : List Input :=
      [.data ⟨.new (.v4 1) 1024 (.v4 2) 502, .clientToServer, [0, 1, 0, 0], 0, 0⟩,
        .data ⟨.new (.v4 1) 1024 (.v4 2) 9, .clientToServer, [0, 1, 0, 0], 0, 0⟩,
        .close (.new (.v4 1) 1024 (.v4 2) 9) .fin]
    ∃ s, run onInput modbusOnly.dispatcher inputs = .ok s ∧
      Routing modbusOnly.dispatcher inputs s := by
  exact ⟨_, rfl, run_routes modbusOnly _ rfl⟩

end Wirerust.Dispatcher
