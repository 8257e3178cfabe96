import Wirerust.RunTechniques

/-!
What is left when a run of `analyze` is over.

The reassembler has told the dispatcher of every flow that it has let go of (`Quiet`), and the
dispatcher remembers a flow only between its first data and its close (`Heeds`). So at the end
neither the dispatcher nor one of the analyzers has anything left of any flow
(`runAnalyze_forgets`).
-/

namespace Lib.SortedMap

variable {κ ν : Type} [LinearOrder κ]

theorem entries_eq_nil {m : SortedMap κ ν} (h : ∀ k, m.get? k = none) : m.entries = [] := by
  have hempty : m = empty := ext_get? fun k => (h k).trans (get?_empty k).symm
  rw [hempty]
  rfl

def keys (m : SortedMap κ ν) : List κ := m.entries.map Prod.fst

theorem mem_keys {m : SortedMap κ ν} {k : κ} : k ∈ m.keys ↔ (m.get? k).isSome := by
  rw [keys, List.mem_map, Option.isSome_iff_exists]
  constructor
  · rintro ⟨e, he, rfl⟩
    exact ⟨e.2, (m.get?_eq_some_iff e.1 e.2).mpr he⟩
  · rintro ⟨v, hv⟩
    exact ⟨(k, v), (m.get?_eq_some_iff k v).mp hv, rfl⟩

theorem nodup_keys (m : SortedMap κ ν) : m.keys.Nodup := by
  rw [keys, List.Nodup, List.pairwise_map]
  exact m.sorted.imp fun h => ne_of_lt h

/-- Two maps without a common key fit into one that has the keys of both. -/
theorem size_add_le {ν₁ ν₂ : Type} {m₁ : SortedMap κ ν₁} {m₂ : SortedMap κ ν₂} {m : SortedMap κ ν}
    (hdisjoint : ∀ k, m₁.get? k = none ∨ m₂.get? k = none)
    (h₁ : ∀ k, (m₁.get? k).isSome → (m.get? k).isSome)
    (h₂ : ∀ k, (m₂.get? k).isSome → (m.get? k).isSome) : m₁.size + m₂.size ≤ m.size := by
  have hnodup : (m₁.keys ++ m₂.keys).Nodup := by
    refine List.nodup_append'.mpr ⟨m₁.nodup_keys, m₂.nodup_keys, fun k hk₁ hk₂ => ?_⟩
    rcases hdisjoint k with hnone | hnone
    · rw [mem_keys, hnone] at hk₁
      cases hk₁
    · rw [mem_keys, hnone] at hk₂
      cases hk₂
  have hsub : m₁.keys ++ m₂.keys ⊆ m.keys := by
    intro k hk
    rcases List.mem_append.mp hk with hk | hk
    · exact mem_keys.mpr (h₁ k (mem_keys.mp hk))
    · exact mem_keys.mpr (h₂ k (mem_keys.mp hk))
  have hle := (hnodup.subperm hsub).length_le
  rw [List.length_append] at hle
  simpa [keys, size] using hle

end Lib.SortedMap

namespace Wirerust.RunEnd

open Lib Wirerust.Analyzer Wirerust.CoverageGaps Wirerust.Dispatcher Wirerust.Engine
  Wirerust.EngineSpec Wirerust.Flow Wirerust.Lifetimes Wirerust.Segment Wirerust.Moves
  Wirerust.Retiring Wirerust.RunAnalyze Wirerust.RunLoop Wirerust.RunTechniques
  Wirerust.Techniques Wirerust.Wiring
open Wirerust.Pipelines hiding runAnalyze

/-! ## The reassembler -/

theorem heard_append_other {key : FlowKey} (events : List Event) {new : List Event}
    (h : ∀ e ∈ new, eventKey e ≠ key) : heard key (events ++ new) = heard key events := by
  induction new using List.reverseRecOn with
  | nil => rw [List.append_nil]
  | append_singleton new e ih =>
    rw [← List.append_assoc, heard_snoc, hear_other (h e (by simp)),
      ih fun e' he' => h e' (List.mem_append_left _ he')]

theorem heard_close (key : FlowKey) (events : List Event) (reason : CloseReason) :
    heard key (events ++ [.onFlowClose key reason]) = false := by
  rw [heard_snoc, hear, beq_self_eq_true, Bool.not_true, Bool.and_false]

/-- No flow that is gone has been heard since. -/
def Quiet (v : View) : Prop := ∀ key, v.flows.get? key = none → heard key v.events = false

theorem quiet_closed {v : View} (h : Quiet v) (key : FlowKey) (f : TcpFlow)
    (reason : CloseReason) (client server : List (Chunk UInt8)) :
    Quiet (closed v key f reason client server) := by
  intro k hk
  change (v.flows.erase key).get? k = none at hk
  change heard k (v.events ++ (drainEvents key f client server ++ [.onFlowClose key reason])) =
    false
  by_cases hkey : k = key
  · rw [hkey, ← List.append_assoc]
    exact heard_close key _ reason
  · rw [SortedMap.get?_erase_of_ne _ hkey] at hk
    rw [heard_append_other]
    · exact h k hk
    · refine List.forall_mem_append.mpr ⟨?_, fun e he => ?_⟩
      · exact forall_drainEvents (P := fun e => eventKey e ≠ k) (fun _ _ _ _ => Ne.symm hkey) f
          client server
      · rw [List.mem_singleton.mp he]
        exact Ne.symm hkey

theorem quiet_countClose {v : View} (h : Quiet v) (reason : CloseReason) :
    Quiet (countClose v reason) := by
  cases reason <;> exact h

theorem Quiet.retire {counted : Bool} {v v' : View} {key : FlowKey} (h : Quiet v)
    (hret : Retire counted v key v') : Quiet v' := by
  cases hret with
  | mk f reason client server hf hdrain hfin =>
    split
    · exact quiet_countClose (quiet_closed h key f reason client server) reason
    · exact quiet_closed h key f reason client server

theorem Quiet.insert {v v' : View} (h : Quiet v) {key : FlowKey} {f : TcpFlow} {new : List Event}
    (hflows : v'.flows = v.flows.insert key f) (hevents : v'.events = v.events ++ new)
    (hnew : ∀ e ∈ new, eventKey e = key) : Quiet v' := by
  intro k hk
  rw [hflows] at hk
  have hne : k ≠ key := by
    rintro rfl
    rw [SortedMap.get?_insert_self] at hk
    cases hk
  rw [SortedMap.get?_insert_of_ne _ _ hne] at hk
  rw [hevents, heard_append_other _ fun e he heq => hne (heq.symm.trans (hnew e he))]
  exact h k hk

theorem Quiet.move {v v' : View} (h : Quiet v) (hm : Move v v') : Quiet v' := by
  cases hm with
  | create key timestamp index hnone hroom =>
    refine h.insert rfl rfl fun e he => ?_
    rw [List.mem_singleton.mp he]
    rfl
  | touch key f timestamp index hf =>
    exact h.insert rfl (List.append_nil _).symm fun e he => by cases he
  | packet f f' p dir chunks timestamp hf hopen hrst hacc =>
    refine h.insert rfl rfl (List.forall_mem_cons.mpr ⟨rfl, ?_⟩)
    exact forall_dataEvents (fun _ _ _ _ => rfl) dir timestamp chunks
  | reset f p client server hf hopen hrst hdrain =>
    refine quiet_countClose (quiet_closed ?_ p.key _ .rst client server) .rst
    intro k hk
    have hne : k ≠ p.key := by
      rintro rfl
      rw [show v.flows.get? p.key = none from hk] at hf
      cases hf
    change heard k (v.events ++ [p.event]) = false
    rw [heard_append_other _ fun e he => by rw [List.mem_singleton.mp he]; exact Ne.symm hne]
    exact h k hk
  | retire _ key hret => exact h.retire hret

theorem Quiet.path {v v' : View} (h : Quiet v) (hp : Path v v') : Quiet v' := by
  induction hp with
  | refl => exact h
  | tail _ hm ih => exact ih.move hm

theorem Quiet.retires {counted : Bool} {v v' : View} (h : Quiet v) (hr : Retires counted v v') :
    Quiet v' := by
  induction hr with
  | refl => exact h
  | tail _ hret ih =>
    obtain ⟨key, hret⟩ := hret
    exact ih.retire hret

/-! ## The dispatcher -/

section Dispatch

variable {a : Analyzers} {events : List Event} {d d' : StreamDispatcher a}

/-- Only a flow that has been heard is remembered. -/
structure Heeds (events : List Event) (d : StreamDispatcher a) : Prop where
  consistent : Consistent d
  routes : ∀ key, heard key events = false → d.routes.get? key = none
  attempts : ∀ key, heard key events = false → d.classificationAttempts.get? key = none

theorem onData_attempts {c : Dispatcher.Chunk} (h : onData d c = .ok d') {key : FlowKey}
    (hkey : key ≠ c.flowKey) :
    d'.classificationAttempts.get? key = d.classificationAttempts.get? key := by
  rcases onData_cases h with ⟨-, rfl⟩ | ⟨hkept, -⟩
  · rfl
  · have hrecord : (record (route d c).1 (route d c).2 c).classificationAttempts =
        (route d c).1.classificationAttempts := by
      unfold record
      split <;> rfl
    rw [hkept.attempts, hrecord]
    rcases route_cases d c with ⟨target, -, hroute⟩ | ⟨-, target, hroute⟩ | ⟨-, n, -, hroute⟩
    · rw [hroute]
    · rw [hroute]
      exact SortedMap.get?_erase_of_ne _ hkey
    · rw [hroute]
      exact SortedMap.get?_insert_of_ne _ _ hkey

theorem Heeds.onData (h : Heeds events d) {key : FlowKey} {direction : Direction}
    {data : List UInt8} {offset : Nat} {timestamp : UInt32}
    (hs : Dispatcher.onData d ⟨key, direction, data, offset, timestamp⟩ = .ok d') :
    Heeds (events ++ [.onData key direction data offset timestamp]) d' := by
  obtain ⟨-, hroutes, -⟩ := onData_calls hs
  have hunheard : ∀ k, heard k (events ++ [.onData key direction data offset timestamp]) = false →
      k ≠ key ∧ heard k events = false := by
    intro k hk
    rw [heard_snoc, hear, Bool.or_eq_false_iff] at hk
    exact ⟨Ne.symm (beq_eq_false_iff_ne.mp hk.2), hk.1⟩
  refine ⟨h.consistent.onData_step hs, fun k hk => ?_, fun k hk => ?_⟩
  · obtain ⟨hne, hbefore⟩ := hunheard k hk
    rw [hroutes k hne]
    exact h.routes k hbefore
  · obtain ⟨hne, hbefore⟩ := hunheard k hk
    rw [onData_attempts hs hne]
    exact h.attempts k hbefore

theorem get?_erase_none {ν : Type} {m : SortedMap FlowKey ν} {key k : FlowKey}
    (h : k ≠ key → m.get? k = none) : (m.erase key).get? k = none := by
  by_cases hk : k = key
  · rw [hk]
    exact SortedMap.get?_erase_self m key
  · rw [SortedMap.get?_erase_of_ne m hk]
    exact h hk

theorem Heeds.onFlowClose (h : Heeds events d) (key : FlowKey) (reason : CloseReason) :
    Heeds (events ++ [.onFlowClose key reason]) (Dispatcher.onFlowClose d key reason) := by
  have hclosed := onFlowClose_closed d key reason
  have hother : ∀ k, heard k (events ++ [.onFlowClose key reason]) = false → k ≠ key →
      heard k events = false := by
    intro k hk hne
    rw [heard_append_other] at hk
    · exact hk
    · intro e he
      rw [List.mem_singleton.mp he]
      exact Ne.symm hne
  refine ⟨h.consistent.onFlowClose_step key reason, fun k hk => ?_, fun k hk => ?_⟩
  · rw [hclosed.routes]
    exact get?_erase_none fun hne => h.routes k (hother k hk hne)
  · rw [hclosed.attempts]
    exact get?_erase_none fun hne => h.attempts k (hother k hk hne)

theorem Heeds.handle (h : Heeds events d) {e : Event} (hs : CoverageGaps.handle d e = .ok d') :
    Heeds (events ++ [e]) d' := by
  cases e with
  | onData key direction data offset timestamp => exact h.onData hs
  | onFlowClose key reason =>
    cases hs
    exact h.onFlowClose key reason
  | _ =>
    cases hs
    refine ⟨h.consistent, fun k hk => ?_, fun k hk => ?_⟩
    · rw [heard_snoc] at hk
      exact h.routes k hk
    · rw [heard_snoc] at hk
      exact h.attempts k hk

theorem Heeds.run (h : Heeds events d) {new : List Event}
    (hs : run CoverageGaps.handle d new = .ok d') : Heeds (events ++ new) d' := by
  refine run_keeps_seen (I := fun pre d => Heeds (events ++ pre) d) (fun pre d e d' hI hstep => ?_)
    ?_ hs
  · rw [← List.append_assoc]
    exact hI.handle hstep
  · rw [List.append_nil]
    exact h

/-- Before the first event. -/
theorem heeds_setup (setup : Setup a) : Heeds [] setup.dispatcher where
  consistent := setup.consistent
  routes := fun _ _ => rfl
  attempts := fun _ _ => rfl

end Dispatch

/-! ## The loop -/

section Loop

variable {a : Analyzers} {C : ReassemblyConfig → Prop}

/-- What the dispatcher remembers is of flows that the reassembler has. -/
structure Tidy (C : ReassemblyConfig → Prop) (s : Analysis a) : Prop where
  idle : s.reassembler = none → Heeds [] s.dispatcher
  busy : ∀ reasm, s.reassembler = some reasm →
    (Ready (view reasm) ∧ reasm.finalized = false ∧ C reasm.config) ∧
      Quiet (view reasm) ∧ Heeds reasm.events s.dispatcher

theorem Tidy.reassemble {s s' : Analysis a} (h : Tidy C s) {ord : Pipelines.Orders}
    {parsed : ParsedPacket} {timestampSecs : UInt32}
    (hs : Pipelines.reassemble ord s parsed timestampSecs = .ok s') : Tidy C s' := by
  rcases reassemble_eq_ok hs with ⟨-, rfl⟩ |
    ⟨reasm, reasm', dispatcher, hreasm, hpacket, hcalls, rfl⟩
  · exact h
  · obtain ⟨⟨hready, hfin, hconfig⟩, hquiet, hheeds⟩ := h.busy reasm hreasm
    obtain ⟨hpath, hready'⟩ :=
      (processPacket_moves ord.iter hready parsed timestampSecs).2 _ hpacket
    obtain ⟨new, hevents⟩ :=
      AnalyzeLoop.receive_events hready (i := (parsed, timestampSecs)) hpacket
    rw [← hevents, List.drop_left] at hcalls
    refine ⟨fun hnone => (by cases hnone), fun r hr => ?_⟩
    cases hr
    have hsame : reasm'.config = reasm.config := path_config hpath
    exact ⟨⟨hready', (path_finalized hpath).trans hfin, hsame ▸ hconfig⟩,
      hquiet.path hpath, hevents ▸ hheeds.run hcalls⟩

theorem tidy_keeps (flags : Flags) (ord : Pipelines.Orders) :
    Keeps flags ord fun _ (s : Analysis a) => Tidy C s :=
  keeps_of_streams
    (fun _ _ _ hsame h => ⟨fun hnone => hsame.2 ▸ h.idle (hsame.1 ▸ hnone), fun reasm hreasm =>
      hsame.2 ▸ h.busy reasm (hsame.1 ▸ hreasm)⟩)
    fun _ _ _ _ _ h hs => h.reassemble hs

theorem isSome_of_heard {reasm : TcpReassembler} (h : Quiet (view reasm)) {key : FlowKey}
    {α : Type} {x : Option α} (hx : heard key reasm.events = false → x = none)
    (hsome : x.isSome) : (reasm.flows.get? key).isSome := by
  cases hget : reasm.flows.get? key with
  | some f => rfl
  | none =>
    rw [hx (h key hget)] at hsome
    cases hsome

/-- The dispatcher has no more flows than the reassembler. -/
theorem Tidy.sizes {s : Analysis a} (h : Tidy C s) {reasm : TcpReassembler}
    (hreasm : s.reassembler = some reasm) :
    (∀ key, (s.dispatcher.routes.get? key).isSome → (reasm.flows.get? key).isSome) ∧
      s.dispatcher.routes.size + s.dispatcher.classificationAttempts.size ≤ reasm.flows.size := by
  obtain ⟨-, hquiet, hheeds⟩ := h.busy reasm hreasm
  have hroutes : ∀ key, (s.dispatcher.routes.get? key).isSome → (reasm.flows.get? key).isSome :=
    fun key => isSome_of_heard hquiet (hheeds.routes key)
  exact ⟨hroutes, SortedMap.size_add_le hheeds.consistent.disjoint hroutes fun key =>
    isSome_of_heard hquiet (hheeds.attempts key)⟩

end Loop

/-- The limits of the command line. -/
def Limited (o : Options) (config : ReassemblyConfig) : Prop :=
  config.maxFlows = 100000 ∧ config.memcap = o.reassemblyMemcap * 1048576

theorem limited_of_config {o : Options} {config : ReassemblyConfig}
    (h : o.reassemblyConfig = .ok config) : Limited o config := by
  obtain ⟨maxDepth, -, h⟩ := bind_eq_ok.mp h
  obtain ⟨memcap, hmemcap, h⟩ := bind_eq_ok.mp h
  cases h
  refine ⟨rfl, ?_⟩
  unfold checkedProduct at hmemcap
  split at hmemcap
  · cases hmemcap
    rfl
  · cases hmemcap

theorem tidy_start (o : Options) (libs : Libraries) {reassembler : Option TcpReassembler}
    (h : o.reassembler = .ok reassembler) : Tidy (Limited o) (o.start libs reassembler) where
  idle := fun _ => heeds_setup (o.setup libs)
  busy := fun reasm hreasm => by
    obtain ⟨-, config, hconfig, hnew⟩ := reassembler_eq_ok h hreasm
    have hview := (new_eq_ok hnew).2
    obtain ⟨hready, hsame⟩ := EngineSpec.ready_new hnew
    refine ⟨⟨hready, congrArg View.finalized hview, hsame ▸ limited_of_config hconfig⟩,
      fun key _ => ?_, ?_⟩
    · rw [hview]
      rfl
    · rw [show reasm.events = [] from congrArg View.events hview]
      exact heeds_setup (o.setup libs)

/-! ## While it runs -/

section Bounded

variable {libs : Libraries}

/-- The analyzer of the target has state of the flow. -/
def hasState (d : StreamDispatcher (analyzers libs)) (target : DispatchTarget)
    (key : FlowKey) : Bool :=
  match target with
  | .http => (d.http.bind fun t => (stateOf (m := http libs.httparse) t).flows.get? key).isSome
  | .tls => (d.tls.bind fun t => (stateOf (m := tls libs.tlsParser) t).flows.get? key).isSome
  | .modbus => (d.modbus.bind fun s => s.flows.get? key).isSome
  | .dnp3 => (d.dnp3.bind fun s => s.flows.get? key).isSome
  | .enip => (d.enip.bind fun t => (stateOf (m := enip) t).flows.get? key).isSome
  | .iec104 => (d.iec104.bind fun t => (stateOf (m := iec104) t).flows.get? key).isSome
  | .none => false

theorem isSome_keys {σ ν : Type} {m : Wiring.Streaming σ} {flows : σ → SortedMap FlowKey ν}
    {I : Nat → σ → Prop} {n : Nat} {slot : Option (Table m.code)} (h : HeldTable m flows I n slot)
    {key : FlowKey} (hstate : (slot.bind fun t => (flows (stateOf t)).get? key).isSome) :
    (slot.bind fun t => t.flows.get? key).isSome := by
  cases hslot : slot with
  | none =>
    rw [hslot] at hstate
    cases hstate
  | some t =>
    rw [hslot] at hstate
    cases hkeys : t.flows.get? key with
    | some entry =>
      rw [Option.bind_some, hkeys]
      rfl
    | none =>
      rw [Option.bind_some, (h t hslot).1.known key hkeys] at hstate
      cases hstate

theorem holds_of_hasState {I : Invariants} {n : Nat} {d : StreamDispatcher (analyzers libs)}
    (h : I.Hold n d) {target : DispatchTarget} {key : FlowKey}
    (hstate : hasState d target key = true) : d.holds target key = true := by
  cases target with
  | http => exact isSome_keys h.http hstate
  | tls => exact isSome_keys h.tls hstate
  | modbus => exact hstate
  | dnp3 => exact hstate
  | enip => exact isSome_keys h.enip hstate
  | iec104 => exact isSome_keys h.iec104 hstate
  | none => exact hstate

/-- No promise but the one that the tables of the dispatcher know the flows of their analyzers. -/
def anything : Invariants where
  http := fun _ _ => True
  tls := fun _ _ => True
  modbus := fun _ _ => True
  dnp3 := fun _ _ => True
  enip := fun _ _ => True
  iec104 := fun _ _ => True

theorem anything_lasts {σ : Type} (m : Wiring.Streaming σ) :
    Lasts 0 m.step inputBytes (fun _ _ => True) where
  step := fun _ _ _ _ => ⟨fun h => absurd h (Nat.not_lt_zero _), fun _ _ => trivial⟩
  mono := fun _ _ _ _ _ => trivial

theorem anything_last (libs : Libraries) : anything.Last libs 0 where
  http := anything_lasts _
  tls := anything_lasts _
  modbus := anything_lasts _
  dnp3 := anything_lasts _
  enip := anything_lasts _
  iec104 := anything_lasts _

/-- The analyzers start without flows. -/
structure NoFlows (setup : Setup (analyzers libs)) : Prop where
  http : ∀ s : Http.HttpAnalyzer, setup.http = some s → s.flows = .empty
  tls : ∀ s : Tls.TlsAnalyzer, setup.tls = some s → s.flows = .empty
  enip : ∀ s : Enip.EnipAnalyzer, setup.enip = some s → s.flows = .empty
  iec104 : ∀ s : Iec104.Iec104Analyzer, setup.iec104 = some s → s.flows = .empty

theorem heldTable_new {σ ν : Type} {m : Wiring.Streaming σ} {flows : σ → SortedMap FlowKey ν}
    {slot : Option σ} (hempty : ∀ s, slot = some s → flows s = .empty) :
    HeldTable m flows (fun _ _ => True) 0 (slot.map Table.new) := by
  intro t ht
  obtain ⟨s, hs, rfl⟩ := Option.map_eq_some_iff.mp ht
  exact ⟨tracks_new (hempty s hs), trivial⟩

theorem NoFlows.hold {setup : Setup (analyzers libs)} (h : NoFlows setup) :
    anything.Hold 0 setup.dispatcher where
  http := heldTable_new h.http
  tls := heldTable_new h.tls
  modbus := fun _ _ => trivial
  dnp3 := fun _ _ => trivial
  enip := heldTable_new h.enip
  iec104 := heldTable_new h.iec104

/-- Routing, with the flow tables of the analyzers themselves: an analyzer has state of the flows
that are routed to it and of no other, and none of a flow that has just been closed. -/
theorem run_states {setup : Setup (analyzers libs)} (hfresh : NoFlows setup)
    (inputs : List Input) {s : StreamDispatcher (analyzers libs)}
    (hrun : run onInput setup.dispatcher inputs = .ok s) :
    (∀ target key, hasState s target key = true → s.routes.get? key = some target) ∧
      ∀ pre key reason, inputs = pre ++ [.close key reason] →
        ∀ target, hasState s target key = false := by
  obtain ⟨hcons, n, hhold⟩ := run_keeps (I := fun s : StreamDispatcher (analyzers libs) =>
      Consistent s ∧ ∃ n, anything.Hold n s)
    (fun s i s' hI hstep => by
      obtain ⟨hcons, n, hhold⟩ := hI
      refine ⟨hcons.onInput_step hstep, ?_⟩
      cases i with
      | data c => exact ⟨_, (hhold.onData (anything_last libs) c).2 s' hstep⟩
      | close key reason =>
        cases hstep
        exact ⟨n, hhold.onFlowClose (anything_last libs) key reason⟩)
    ⟨setup.consistent, 0, hfresh.hold⟩ hrun
  have hroutes : ∀ target key, hasState s target key = true → s.routes.get? key = some target :=
    fun target key hstate => hcons.tables target key (holds_of_hasState hhold hstate)
  refine ⟨hroutes, ?_⟩
  rintro pre key reason rfl target
  rw [run_snoc] at hrun
  obtain ⟨s₀, -, hclose⟩ := bind_eq_ok.mp hrun
  cases hclose
  cases hstate : hasState (Dispatcher.onFlowClose s₀ key reason) target key with
  | false => rfl
  | true =>
    have hroute := hroutes target key hstate
    rw [(onFlowClose_closed s₀ key reason).routes, SortedMap.get?_erase_self] at hroute
    cases hroute

/-- At any time, what the analyzers keep of flows is of those routed to them, no two analyzers keep
the same flow, and the flows with a route or waiting for one are open in the reassembler, which has
at most 100,000 and no more bytes of them than its limit. -/
theorem analyze_bounded (decode : Decode) (libs : Libraries) (ord : Pipelines.Orders)
    (o : Options) {reassembler : Option TcpReassembler}
    (hreassembler : o.reassembler = .ok reassembler) (files : List CaptureFile)
    {s : Analysis (analyzers libs)}
    (hs : run (analyzeFile decode o.flags ord) (o.start libs reassembler) files = .ok s) :
    (∀ target key, hasState s.dispatcher target key = true →
      s.dispatcher.routes.get? key = some target) ∧
    s.dispatcher.routes.size + s.dispatcher.classificationAttempts.size ≤ 100000 ∧
    ∀ reasm, s.reassembler = some reasm →
      (∀ key, (s.dispatcher.routes.get? key).isSome → (reasm.flows.get? key).isSome) ∧
      s.dispatcher.routes.size + s.dispatcher.classificationAttempts.size ≤ reasm.flows.size ∧
      reasm.flows.size ≤ 100000 ∧ reasm.totalMemory ≤ o.reassemblyMemcap * 1048576 := by
  have htidy := (tidy_keeps o.flags ord).run (tidy_start o libs hreassembler) hs
  obtain ⟨n, hhold⟩ :=
    ((spotless_keeps o.flags ord).run (spotless_start o libs hreassembler) hs).streams
  have hbusy : ∀ reasm, s.reassembler = some reasm →
      reasm.flows.size ≤ 100000 ∧ reasm.totalMemory ≤ o.reassemblyMemcap * 1048576 := by
    intro reasm hreasm
    obtain ⟨⟨hready, -, hflows, hmemcap⟩, -⟩ := htidy.busy reasm hreasm
    exact ⟨hflows ▸ hready.size, hmemcap ▸ hready.memory⟩
  cases hreasm : s.reassembler with
  | none =>
    have hheeds := htidy.idle hreasm
    have hroutes : s.dispatcher.routes.entries = [] :=
      SortedMap.entries_eq_nil fun key => hheeds.routes key rfl
    have hattempts : s.dispatcher.classificationAttempts.entries = [] :=
      SortedMap.entries_eq_nil fun key => hheeds.attempts key rfl
    refine ⟨fun target key hstate =>
      hheeds.consistent.tables target key (holds_of_hasState hhold hstate), ?_, fun reasm h => ?_⟩
    · rw [SortedMap.size, SortedMap.size, hroutes, hattempts]
      decide
    · cases h
  | some reasm =>
    obtain ⟨hroutes, hsizes⟩ := htidy.sizes hreasm
    have hheeds := (htidy.busy reasm hreasm).2.2
    have hlimits := hbusy reasm hreasm
    refine ⟨fun target key hstate =>
      hheeds.consistent.tables target key (holds_of_hasState hhold hstate),
      Nat.le_trans hsizes hlimits.1, fun r hr => ?_⟩
    cases hr
    exact ⟨hroutes, hsizes, hlimits⟩

/-- A connection to port 80 that is not closed. -/
def openFile : CaptureFile :=
  .ok ⟨[AnalyzeLoop.tcpFrame false [0, 0, 0, 7] 0x02 [],
    AnalyzeLoop.tcpFrame true [255, 255, 255, 255] 0x12 [],
    AnalyzeLoop.tcpFrame false [0, 0, 0, 8] 0x10 [3]], .raw, 0, 0, false⟩

theorem analyze_bounded_open : ∃ reassembler s,
    (Survival.allAnalyzers 10 (by decide)).reassembler = .ok reassembler ∧
    run (analyzeFile AnalyzeLoop.plainTcp (Survival.allAnalyzers 10 (by decide)).flags plainOrders)
      ((Survival.allAnalyzers 10 (by decide)).start Survival.plainLibraries reassembler)
      [openFile] = .ok s ∧
    s.dispatcher.routes.size = 1 ∧
    (∀ target key, hasState s.dispatcher target key = true →
      s.dispatcher.routes.get? key = some target) ∧
    s.dispatcher.routes.size + s.dispatcher.classificationAttempts.size ≤ 100000 ∧
    ∀ reasm, s.reassembler = some reasm →
      (∀ key, (s.dispatcher.routes.get? key).isSome → (reasm.flows.get? key).isSome) ∧
      s.dispatcher.routes.size + s.dispatcher.classificationAttempts.size ≤ reasm.flows.size ∧
      reasm.flows.size ≤ 100000 ∧ reasm.totalMemory ≤ 1024 * 1048576 := by
  have hreturns : Returns (Survival.allAnalyzers 10 (by decide)).reassembler fun reassembler =>
      Returns (run (analyzeFile AnalyzeLoop.plainTcp (Survival.allAnalyzers 10 (by decide)).flags
        plainOrders) ((Survival.allAnalyzers 10 (by decide)).start Survival.plainLibraries
        reassembler) [openFile]) fun s => s.dispatcher.routes.size = 1 := by
    decide +kernel
  obtain ⟨reassembler, hreassembler, s, hs, hsize⟩ := hreturns
  exact ⟨reassembler, s, hreassembler, hs, hsize, analyze_bounded AnalyzeLoop.plainTcp
    Survival.plainLibraries plainOrders (Survival.allAnalyzers 10 (by decide)) hreassembler
    [openFile] hs⟩

end Bounded

/-! ## The end -/

section Conclude

variable {libs : Libraries} {C : ReassemblyConfig → Prop}

/-- Nothing of any flow is left. -/
structure Forgotten (d : StreamDispatcher (analyzers libs)) : Prop where
  routes : d.routes.entries = []
  attempts : d.classificationAttempts.entries = []
  http : ∀ t, d.http = some t → (stateOf (m := http libs.httparse) t).flows.entries = []
  tls : ∀ t, d.tls = some t → (stateOf (m := tls libs.tlsParser) t).flows.entries = []
  modbus : ∀ s, d.modbus = some s → s.flows.entries = []
  dnp3 : ∀ s, d.dnp3 = some s → s.flows.entries = []
  enip : ∀ t, d.enip = some t → (stateOf (m := enip) t).flows.entries = []
  iec104 : ∀ t, d.iec104 = some t → (stateOf (m := iec104) t).flows.entries = []

theorem holds_none {a : Analyzers} {events : List Event} {d : StreamDispatcher a}
    (h : Heeds events d) (hquiet : ∀ key, heard key events = false) (target : DispatchTarget)
    (key : FlowKey) : d.holds target key = false := by
  cases hholds : d.holds target key with
  | false => rfl
  | true =>
    have hroute := h.consistent.tables target key hholds
    rw [h.routes key (hquiet key)] at hroute
    cases hroute

/-- An analyzer whose table has no keys has no flows. -/
theorem flows_of_keys {σ ν : Type} {m : Wiring.Streaming σ} {flows : σ → SortedMap FlowKey ν}
    {I : Nat → σ → Prop} {n : Nat} {slot : Option (Table m.code)} (h : HeldTable m flows I n slot)
    (hkeys : ∀ key, (slot.bind fun t => t.flows.get? key).isSome = false) {t : Table m.code}
    (ht : slot = some t) : (flows (stateOf t)).entries = [] := by
  refine SortedMap.entries_eq_nil fun key => (h t ht).1.known key ?_
  have hkey := hkeys key
  rw [ht] at hkey
  exact Option.not_isSome_iff_eq_none.mp (Bool.eq_false_iff.mp hkey)

theorem flows_of_slot {σ ν : Type} {flows : σ → SortedMap FlowKey ν} {slot : Option σ}
    (hkeys : ∀ key, (slot.bind fun s => (flows s).get? key).isSome = false) {s : σ}
    (hs : slot = some s) : (flows s).entries = [] := by
  refine SortedMap.entries_eq_nil fun key => ?_
  have hkey := hkeys key
  rw [hs] at hkey
  exact Option.not_isSome_iff_eq_none.mp (Bool.eq_false_iff.mp hkey)

theorem forgotten_of_heeds {I : Invariants} {n : Nat} {events : List Event}
    {d : StreamDispatcher (analyzers libs)} (h : Heeds events d) (hhold : I.Hold n d)
    (hquiet : ∀ key, heard key events = false) : Forgotten d where
  routes := SortedMap.entries_eq_nil fun key => h.routes key (hquiet key)
  attempts := SortedMap.entries_eq_nil fun key => h.attempts key (hquiet key)
  http := fun _ => flows_of_keys hhold.http (holds_none h hquiet .http)
  tls := fun _ => flows_of_keys hhold.tls (holds_none h hquiet .tls)
  modbus := fun _ => flows_of_slot (holds_none h hquiet .modbus)
  dnp3 := fun _ => flows_of_slot (holds_none h hquiet .dnp3)
  enip := fun _ => flows_of_keys hhold.enip (holds_none h hquiet .enip)
  iec104 := fun _ => flows_of_keys hhold.iec104 (holds_none h hquiet .iec104)

theorem Tidy.finalizeStreams {ord : Pipelines.Orders} {s s' : Analysis (analyzers libs)}
    (h : Tidy C s) (hs : RunAnalyze.finalizeStreams ord s = .ok s') :
    Survival.Drained s' ∧
      ∃ events, Heeds events s'.dispatcher ∧ ∀ key, heard key events = false := by
  unfold RunAnalyze.finalizeStreams at hs
  cases hreasm : s.reassembler with
  | none =>
    rw [hreasm] at hs
    cases hs
    refine ⟨fun reasm heq => ?_, [], h.idle hreasm, fun _ => rfl⟩
    rw [hreasm] at heq
    cases heq
  | some reasm =>
    rw [hreasm] at hs
    obtain ⟨reasm', hfinal, hs⟩ := bind_eq_ok.mp hs
    obtain ⟨dispatcher, hcalls, hs⟩ := bind_eq_ok.mp hs
    cases hs
    obtain ⟨⟨hready, hfin, -⟩, hquiet, hheeds⟩ := h.busy reasm hreasm
    obtain ⟨hretires, hnil, -⟩ := (finalize_closes ord.iter hready.wf hfin).apply hfinal
    obtain ⟨new, hevents, -⟩ := (Volume.finalize_adds ord.iter hready).apply hfinal
    rw [hevents, List.drop_left] at hcalls
    refine ⟨fun r hr => ?_, reasm'.events, hevents ▸ hheeds.run hcalls, fun key => ?_⟩
    · cases hr
      exact (Survival.finalize_drains ord.iter hready hfin).apply hfinal
    have hend : Quiet (view reasm') :=
      Quiet.retires (v := { view reasm with finalized := true }) hquiet hretires
    refine hend key ?_
    change reasm'.flows.get? key = none
    rw [SortedMap.get?_eq_none_iff, hnil]
    simp

end Conclude

/-! ## All runs -/

theorem runAnalyze_quiet {lib : Decoder.Etherparse} {libs : Libraries} {ord : Pipelines.Orders}
    {o : Options} {targets : List Target} {s : Analysis (analyzers libs)}
    (h : runAnalyze lib libs ord o targets = .ok (.ok s)) :
    Survival.Drained s ∧ (∃ n, techniques.Hold n s.dispatcher) ∧
      ∃ events, Heeds events s.dispatcher ∧ ∀ key, heard key events = false := by
  obtain ⟨-, -, reassembler, s₁, hreassembler, hrun, hconclude⟩ := runAnalyze_completed h
  have htidy := (tidy_keeps o.flags ord).run (tidy_start o libs hreassembler) hrun
  have hspotless := (spotless_keeps o.flags ord).run (spotless_start o libs hreassembler) hrun
  obtain ⟨s₂, hfinal, hlast⟩ := bind_eq_ok.mp hconclude
  cases hlast
  have hskipped : Tidy (Limited o) { s₁ with summary :=
      { s₁.summary with skippedPackets := s₁.totalDecodeErrors } } := ⟨htidy.idle, htidy.busy⟩
  have hskipped' : Spotless { s₁ with summary :=
      { s₁.summary with skippedPackets := s₁.totalDecodeErrors } } :=
    ⟨hspotless.found, hspotless.reassembler, hspotless.streams⟩
  obtain ⟨hdrained, hquiet⟩ := hskipped.finalizeStreams hfinal
  exact ⟨hdrained, (hskipped'.finalizeStreams hfinal).2, hquiet⟩

/-- After a run with a report neither the reassembler nor the dispatcher nor an analyzer behind it
has anything left of any flow. -/
theorem runAnalyze_forgets (lib : Decoder.Etherparse) (libs : Libraries) (ord : Pipelines.Orders)
    (o : Options) (targets : List Target) {s : Analysis (analyzers libs)}
    (h : runAnalyze lib libs ord o targets = .ok (.ok s)) :
    Survival.Drained s ∧ Forgotten s.dispatcher := by
  obtain ⟨hdrained, ⟨n, hhold⟩, events, hheeds, hquiet⟩ := runAnalyze_quiet h
  exact ⟨hdrained, forgotten_of_heeds hheeds hhold hquiet⟩

theorem runAnalyze_forgets_exchange : ∃ s,
    runAnalyze Survival.plainIp Survival.plainLibraries plainOrders
      (Survival.allAnalyzers 10 (by decide)) [.ok [AnalyzeLoop.exchangeFile]] = .ok (.ok s) ∧
    s.dispatcher.calls.length = 3 ∧ Survival.Drained s ∧ Forgotten s.dispatcher := by
  have hreturns : Returns (runAnalyze Survival.plainIp Survival.plainLibraries plainOrders
      (Survival.allAnalyzers 10 (by decide)) [.ok [AnalyzeLoop.exchangeFile]])
      fun r => Returns r fun s => s.dispatcher.calls.length = 3 := by
    decide +kernel
  obtain ⟨_, hs, s, rfl, hcalls⟩ := hreturns
  exact ⟨s, hs, hcalls, runAnalyze_forgets Survival.plainIp Survival.plainLibraries plainOrders
    (Survival.allAnalyzers 10 (by decide)) [.ok [AnalyzeLoop.exchangeFile]] hs⟩

end Wirerust.RunEnd
