import Wirerust.Analyzer.Modbus
import Wirerust.Analyzer.Dnp3
import Mathlib.Order.Lattice

/-!
The stream dispatcher (`dispatcher.rs`).

The dispatcher looks at the first bytes of a flow and at its ports, and sends the flow's data to
one of six analyzers. Of the HTTP, TLS, EtherNet/IP and IEC 104 analyzers only the outside is
given here, which is the same for all four: `on_data` finds or makes the entry of its flow and
works on that entry and on what is not in the table, and `on_flow_close` takes the entry out. What
they do in between is the `step` of a `TableAnalyzer`, and every theorem is about arbitrary ones.
The log `calls` has every call of an analyzer's `on_data`.
-/

namespace Wirerust.Dispatcher

open Lib Wirerust.Flow Wirerust.Analyzer

/-- What `on_data` is given. -/
structure Chunk where
  flowKey : FlowKey
  direction : Direction
  data : List UInt8
  offset : Nat
  timestamp : UInt32
  deriving DecidableEq

/-! ## Analyzers -/

/-- An analyzer with a table of flows. -/
structure TableAnalyzer where
  FlowEntry : Type
  Shared : Type
  fresh : FlowEntry
  step : Shared → FlowEntry → Chunk → Checked (Shared × FlowEntry)
  retire : Shared → FlowEntry → Shared

/-- The state of such an analyzer. -/
structure Table (code : TableAnalyzer) where
  flows : SortedMap FlowKey code.FlowEntry
  shared : code.Shared

def Table.new {code : TableAnalyzer} (shared : code.Shared) : Table code := ⟨.empty, shared⟩

def Table.onData {code : TableAnalyzer} (t : Table code) (c : Chunk) : Checked (Table code) := do
  let entry := (t.flows.get? c.flowKey).getD code.fresh
  let (shared, entry) ← code.step t.shared entry c
  .ok ⟨t.flows.insert c.flowKey entry, shared⟩

def Table.onFlowClose {code : TableAnalyzer} (t : Table code) (flowKey : FlowKey) : Table code :=
  match t.flows.get? flowKey with
  | some entry => ⟨t.flows.erase flowKey, code.retire t.shared entry⟩
  | none => t

/-- What the dispatcher's theorems leave open. -/
structure Analyzers where
  http : TableAnalyzer
  tls : TableAnalyzer
  enip : TableAnalyzer
  iec104 : TableAnalyzer
  pendingOrder : Dnp3.PendingOrder

/-! ## The dispatcher -/

inductive TransportProto
  | tcp
  | udp
  deriving DecidableEq, Repr

def TransportProto.rank : TransportProto → Nat
  | .tcp => 0
  | .udp => 1

theorem TransportProto.rank_injective : Function.Injective rank := by
  intro a b h
  cases a <;> cases b <;> first | rfl | cases h

instance : LinearOrder TransportProto := LinearOrder.lift' TransportProto.rank
  TransportProto.rank_injective

inductive DispatchTarget
  | http
  | tls
  | modbus
  | dnp3
  | enip
  | iec104
  | none
  deriving DecidableEq, Repr

def defaultMaxClassificationAttempts : UInt32 := 8

structure StreamDispatcher (a : Analyzers) where
  routes : SortedMap FlowKey DispatchTarget
  classificationAttempts : SortedMap FlowKey Nat
  maxClassificationAttempts : UInt32
  http : Option (Table a.http)
  tls : Option (Table a.tls)
  modbus : Option Modbus.ModbusAnalyzer
  dnp3 : Option Dnp3.Dnp3Analyzer
  enip : Option (Table a.enip)
  iec104 : Option (Table a.iec104)
  unclassifiedFlows : Nat
  unclassifiedPortCounts : SortedMap (TransportProto ×ₗ UInt16) Nat
  coverageGapsEnabled : Bool
  calls : List (DispatchTarget × Chunk)

namespace StreamDispatcher

variable {a : Analyzers}

def new (http : Option (Table a.http)) (tls : Option (Table a.tls))
    (modbus : Option Modbus.ModbusAnalyzer) (dnp3 : Option Dnp3.Dnp3Analyzer)
    (enip : Option (Table a.enip)) (iec104 : Option (Table a.iec104)) : StreamDispatcher a where
  routes := .empty
  classificationAttempts := .empty
  maxClassificationAttempts := defaultMaxClassificationAttempts
  http := http
  tls := tls
  modbus := modbus
  dnp3 := dnp3
  enip := enip
  iec104 := iec104
  unclassifiedFlows := 0
  unclassifiedPortCounts := .empty
  coverageGapsEnabled := false
  calls := []

def withMaxClassificationAttempts (s : StreamDispatcher a) (maxAttempts : UInt32) :
    StreamDispatcher a :=
  { s with maxClassificationAttempts := maxAttempts }

def withCoverageGaps (s : StreamDispatcher a) (enabled : Bool) : StreamDispatcher a :=
  { s with coverageGapsEnabled := enabled }

/-- Whether there is an analyzer for the target. -/
def configured (s : StreamDispatcher a) : DispatchTarget → Bool
  | .http => s.http.isSome
  | .tls => s.tls.isSome
  | .modbus => s.modbus.isSome
  | .dnp3 => s.dnp3.isSome
  | .enip => s.enip.isSome
  | .iec104 => s.iec104.isSome
  | .none => false

def anyConfigured (s : StreamDispatcher a) : Bool :=
  s.http.isSome || s.tls.isSome || s.modbus.isSome || s.dnp3.isSome || s.enip.isSome ||
    s.iec104.isSome

end StreamDispatcher

def ascii (s : String) : List UInt8 := s.toList.map fun c => UInt8.ofNat c.toNat

def httpTokens : List String :=
  ["GET ", "POST ", "PUT ", "DELETE ", "HEAD ", "OPTIONS ", "PATCH ", "CONNECT ", "TRACE ", "HTTP/"]

/-- Content first, then ports. -/
def classify (data : List UInt8) (flowKey : FlowKey) : DispatchTarget :=
  let ports := [flowKey.lowerPort, flowKey.upperPort]
  if data.length ≥ 5 && data[0]? == some 0x16 && data[1]? == some 0x03 then .tls
  else if httpTokens.any fun token => (ascii token).isPrefixOf data then .http
  else if 443 ∈ ports ∨ 8443 ∈ ports then .tls
  else if 80 ∈ ports ∨ 8080 ∈ ports then .http
  else if 502 ∈ ports then .modbus
  else if 20000 ∈ ports then .dnp3
  else if 44818 ∈ ports then .enip
  else if 2404 ∈ ports then .iec104
  else .none

section Dispatch

variable {a : Analyzers}

/-- The target of a chunk, and what is remembered about its flow. -/
def route (s : StreamDispatcher a) (c : Chunk) : StreamDispatcher a × DispatchTarget :=
  match s.routes.get? c.flowKey with
  | some cached => (s, cached)
  | none =>
    let target := classify c.data c.flowKey
    if target = .none then
      let count := bump32 ((s.classificationAttempts.get? c.flowKey).getD 0)
      if count ≥ s.maxClassificationAttempts.toNat then
        ({ s with
          routes := s.routes.insert c.flowKey .none
          classificationAttempts := s.classificationAttempts.erase c.flowKey }, .none)
      else
        ({ s with
          classificationAttempts := s.classificationAttempts.insert c.flowKey count }, .none)
    else
      ({ s with
        routes := s.routes.insert c.flowKey target
        classificationAttempts := s.classificationAttempts.erase c.flowKey }, target)

/-- `if let Some(ref mut analyzer) = slot` -/
def feed {α : Type} (onData : α → Checked α) : Option α → Checked (Option α)
  | some analyzer => do
    let analyzer ← onData analyzer
    .ok (some analyzer)
  | none => .ok none

def deliver (s : StreamDispatcher a) (target : DispatchTarget) (c : Chunk) :
    Checked (StreamDispatcher a) :=
  match target with
  | .http => do
    let http ← feed (fun t => t.onData c) s.http
    .ok { s with http := http }
  | .tls => do
    let tls ← feed (fun t => t.onData c) s.tls
    .ok { s with tls := tls }
  | .modbus => do
    let modbus ← feed (fun m => Modbus.onData m c.flowKey c.direction c.data c.timestamp) s.modbus
    .ok { s with modbus := modbus }
  | .dnp3 => do
    let dnp3 ← feed
      (fun d => Dnp3.onData a.pendingOrder d c.flowKey c.data c.timestamp c.direction) s.dnp3
    .ok { s with dnp3 := dnp3 }
  | .enip => do
    let enip ← feed (fun t => t.onData c) s.enip
    .ok { s with enip := enip }
  | .iec104 => do
    let iec104 ← feed (fun t => t.onData c) s.iec104
    .ok { s with iec104 := iec104 }
  | .none => .ok s

/-- The log has the calls of those analyzers that are there. -/
def record (s : StreamDispatcher a) (target : DispatchTarget) (c : Chunk) : StreamDispatcher a :=
  if s.configured target then { s with calls := s.calls ++ [(target, c)] } else s

def onData (s : StreamDispatcher a) (c : Chunk) : Checked (StreamDispatcher a) :=
  if !s.anyConfigured then .ok s
  else
    let (s, target) := route s c
    deliver (record s target c) target c

def retireFlow (s : StreamDispatcher a) (target : DispatchTarget) (flowKey : FlowKey) :
    StreamDispatcher a :=
  match target with
  | .http => { s with http := s.http.map (·.onFlowClose flowKey) }
  | .tls => { s with tls := s.tls.map (·.onFlowClose flowKey) }
  | .modbus => { s with modbus := s.modbus.map (Modbus.onFlowClose · flowKey) }
  | .dnp3 => { s with dnp3 := s.dnp3.map (Dnp3.onFlowClose · flowKey) }
  | .enip => { s with enip := s.enip.map (·.onFlowClose flowKey) }
  | .iec104 => { s with iec104 := s.iec104.map (·.onFlowClose flowKey) }
  | .none => s

/-- A flow that no analyzer has seen. -/
def countUnclassified (s : StreamDispatcher a) (flowKey : FlowKey) : StreamDispatcher a :=
  if s.anyConfigured then
    let s := { s with unclassifiedFlows := bump64 s.unclassifiedFlows }
    if s.coverageGapsEnabled then
      let key := toLex (TransportProto.tcp, min flowKey.lowerPort flowKey.upperPort)
      let count := bump64 ((s.unclassifiedPortCounts.get? key).getD 0)
      { s with unclassifiedPortCounts := s.unclassifiedPortCounts.insert key count }
    else s
  else s

/-- No analyzer looks at the reason. -/
def onFlowClose (s : StreamDispatcher a) (flowKey : FlowKey) (_reason : CloseReason) :
    StreamDispatcher a :=
  let target := s.routes.get? flowKey
  let s := { s with
    classificationAttempts := s.classificationAttempts.erase flowKey
    routes := s.routes.erase flowKey }
  match target with
  | none | some .none => countUnclassified s flowKey
  | some target => retireFlow s target flowKey

end Dispatch

end Wirerust.Dispatcher
