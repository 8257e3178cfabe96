import Wirerust.Lib.Closing
import Wirerust.Lib.Commuting
import Wirerust.Reassembly.Lifetimes

/-!
The order in which the flow table is iterated over.

The table is a `HashMap`, so the order of every sweep, and that of the closes at the end of a
capture, is arbitrary. As long as no flow is evicted it does not matter: two runs over the same
calls end in the same table with the same statistics and findings, and what the handler is told
of each flow is the same (`run_orders`). An eviction may break ties by that order, so it is
left out.

* `Blind`: the engine never looks at what it has told the handler, it only adds to it.
* `Alike`: two states that differ in how the events of different flows are interleaved. A blind
  step keeps it, and two closes can be swapped.
* `Unpressed`: no flow has been evicted. Then no call of `evict_flows` has done anything.
-/

namespace Wirerust.Orders

open Lib Wirerust.Segment Wirerust.Direction Wirerust.Flow Wirerust.Engine Wirerust.Moves
  Wirerust.Retiring Wirerust.EngineSpec Wirerust.Lifetimes

/-! ## What the handler has been told -/

/-- The state as it would be if `told` had come before. -/
def heard (told : List Event) (s : TcpReassembler) : TcpReassembler :=
  { s with events := told ++ s.events }

def heardFst {α : Type} (told : List Event) (out : TcpReassembler × α) : TcpReassembler × α :=
  (heard told out.1, out.2)

section Heard

variable (told : List Event) (s : TcpReassembler)

@[simp] theorem heard_config : (heard told s).config = s.config := rfl

@[simp] theorem heard_flows : (heard told s).flows = s.flows := rfl

@[simp] theorem heard_stats : (heard told s).stats = s.stats := rfl

@[simp] theorem heard_findings : (heard told s).findings = s.findings := rfl

@[simp] theorem heard_totalMemory : (heard told s).totalMemory = s.totalMemory := rfl

@[simp] theorem heard_finalized : (heard told s).finalized = s.finalized := rfl

@[simp] theorem heard_lastExpirySweepSecs :
    (heard told s).lastExpirySweepSecs = s.lastExpirySweepSecs := rfl

@[simp] theorem heard_packetIndex : (heard told s).packetIndex = s.packetIndex := rfl

@[simp] theorem heard_iterations : (heard told s).iterations = s.iterations := rfl

@[simp] theorem heard_events : (heard told s).events = told ++ s.events := rfl

end Heard

/-- The operation does the same whatever has happened before, and adds to it. -/
def Blind {β : Type} (hear : List Event → β → β) (op : TcpReassembler → Checked β) : Prop :=
  ∀ told s, op (heard told s) = (op s).map (hear told)

theorem ite_map {α β : Type} {p q : Prop} [Decidable p] [Decidable q] {x y : Checked β}
    {x' y' : Checked α} {f : α → β} (hpq : p ↔ q) (hx : x = x'.map f) (hy : y = y'.map f) :
    (if p then x else y) = (if q then x' else y').map f := by
  by_cases h : p
  · rw [if_pos h, if_pos (hpq.mp h), hx]
  · rw [if_neg h, if_neg (fun hq => h (hpq.mpr hq)), hy]

section Rules

variable {β : Type} {hear : List Event → β → β}

theorem Blind.bind {op : TcpReassembler → Checked TcpReassembler}
    {next : TcpReassembler → Checked β} (h : Blind heard op) (hnext : Blind hear next) :
    Blind hear fun s => op s >>= next := by
  intro told s
  change (op (heard told s) >>= next) = (op s >>= next).map (hear told)
  rw [h told s, bind_map, map_bind]
  exact congrArg _ (funext fun t => hnext told t)

theorem Blind.bindFst {α : Type} {op : TcpReassembler → Checked (TcpReassembler × α)}
    {next : TcpReassembler × α → Checked β} (h : Blind heardFst op)
    (hnext : ∀ a, Blind hear fun s => next (s, a)) : Blind hear fun s => op s >>= next := by
  intro told s
  change (op (heard told s) >>= next) = (op s >>= next).map (hear told)
  rw [h told s, bind_map, map_bind]
  exact congrArg _ (funext fun out => hnext out.2 told out.1)

theorem Blind.foldlM {ι : Type} {op : ι → TcpReassembler → Checked TcpReassembler}
    (h : ∀ i, Blind heard (op i)) (l : List ι) :
    Blind heard fun s => l.foldlM (fun s i => op i s) s := by
  induction l with
  | nil => exact fun told s => rfl
  | cons i l ih => exact (h i).bind ih

end Rules

/-! ## The operations of the engine -/

theorem deliver_blind (key : FlowKey) (dir : Direction) (chunks : List (Nat × List UInt8))
    (timestamp : UInt32) : Blind heard fun s => deliver s key dir chunks timestamp := by
  refine Blind.foldlM (fun c told s => ?_) chunks
  rw [onData, onData, map_bind]
  exact bind_congr_ok fun n _ => by simp [heard, Except.map]

theorem closeFlow_blind (key : FlowKey) (reason : CloseReason) :
    Blind heard fun s => closeFlow s key reason := by
  intro told s
  simp only [closeFlow, heard_flows]
  cases s.flows.get? key with
  | none => rfl
  | some flow =>
    simp only
    rw [map_bind]
    refine bind_congr_ok fun mem _ => ?_
    rw [map_bind]
    refine bind_congr_ok fun client _ => ?_
    refine (deliver_blind key .clientToServer client.2 flow.lastSeen).bind (fun told s => ?_) told
      { s with flows := s.flows.erase key }
    rw [map_bind]
    refine bind_congr_ok fun server _ => ?_
    refine (deliver_blind key .serverToClient server.2 flow.lastSeen).bind (fun told s => ?_) told s
    rw [map_bind]
    exact bind_congr_ok fun total _ => by simp [heard, Except.map]

theorem evictLoop_blind (target : Nat) (keys : List FlowKey) :
    Blind heard fun s => evictLoop target s keys := by
  induction keys with
  | nil => exact fun told s => rfl
  | cons key keys ih =>
    intro told s
    refine ite_map Iff.rfl rfl ?_
    exact ((closeFlow_blind key .memoryPressure).bind ih) told
      { s with stats := { s.stats with evictions := bump s.stats.evictions } }

theorem evictFlows_blind (ord : IterOrder) (trigger : EvictionTrigger) :
    Blind heard fun s => evictFlows ord s trigger := by
  intro told s
  simp only [evictFlows, heard_iterations, heard_flows, heard_config, map_bind]
  exact bind_congr_ok fun target _ => evictLoop_blind target _ told
    { s with iterations := s.iterations + 1 }

theorem expireWhere_blind (ord : IterOrder) (idle : TcpFlow → Bool) :
    Blind heard fun s => expireWhere ord s idle := by
  intro told s
  exact Blind.foldlM (fun key told s => closeFlow_blind key .timeout told
    { s with stats := { s.stats with flowsExpired := bump s.stats.flowsExpired } }) _ told
    { s with iterations := s.iterations + 1 }

theorem sweepByTimestamp_blind (ord : IterOrder) (timestamp : UInt32) :
    Blind heard fun s => sweepByTimestamp ord s timestamp := fun told s =>
  ite_map Iff.rfl (expireWhere_blind ord _ told { s with lastExpirySweepSecs := timestamp }) rfl

theorem sweepByPacketIndex_blind (ord : IterOrder) :
    Blind heard fun s => sweepByPacketIndex ord s := fun told s =>
  ite_map Iff.rfl (expireWhere_blind ord _ told s) rfl

theorem pushFinding_heard (told : List Event) (s : TcpReassembler) (finding : Finding) :
    pushFinding (heard told s) finding = heard told (pushFinding s finding) := by
  by_cases h : s.findings.length < maxFindings
  · simp [pushFinding, heard, h]
  · simp [pushFinding, heard, h]

theorem pushFindingIf_heard (told : List Event) (s : TcpReassembler) (crossed : Bool)
    (finding : Finding) :
    pushFindingIf crossed (heard told s) finding =
      heard told (pushFindingIf crossed s finding) := by
  cases crossed with
  | false => rfl
  | true => exact pushFinding_heard told s finding

theorem reportInsert_heard (told : List Event) (s : TcpReassembler) (key : FlowKey)
    (srcIp : IpAddr) (timestamp : UInt32) (bytesAdded : Nat) (result : InsertResult) :
    reportInsert (heard told s) key srcIp timestamp bytesAdded result =
      heard told (reportInsert s key srcIp timestamp bytesAdded result) := by
  cases result with
  | conflictingOverlap =>
    exact pushFinding_heard told
      { s with stats := { s.stats with segmentsOverlaps := bump s.stats.segmentsOverlaps } } _
  | truncated =>
    exact pushFinding_heard told
      { s with stats := { s.stats with segmentsInserted := bump s.stats.segmentsInserted } } _
  | segmentLimitReached =>
    simp only [reportInsert]
    split <;> rfl
  | _ => rfl

theorem touchFlow_blind (key : FlowKey) (timestamp : UInt32) :
    Blind heard fun s => touchFlow s key timestamp := by
  intro told s
  simp only [touchFlow, map_bind]
  exact bind_congr_ok fun flow _ => rfl

theorem makeRoom_blind (ord : IterOrder) : Blind heardFst fun s => makeRoom ord s := fun told s =>
  ite_map Iff.rfl (((evictFlows_blind ord .maxFlows).bind fun _ _ => rfl) told s) rfl

/-- A flow is created and stamped. -/
theorem createFlow_blind (key : FlowKey) (timestamp : UInt32) :
    Blind heard fun s => touchFlow { s with
      flows := s.flows.insert key (TcpFlow.new key timestamp)
      stats := { s.stats with flowsTotal := bump s.stats.flowsTotal }
      events := s.events ++ [.flowCreated key] } key timestamp := by
  intro told s
  have h := touchFlow_blind key timestamp told { s with
    flows := s.flows.insert key (TcpFlow.new key timestamp)
    stats := { s.stats with flowsTotal := bump s.stats.flowsTotal }
    events := s.events ++ [.flowCreated key] }
  simpa only [heard, List.append_assoc] using h

theorem getOrCreateFlow_blind (ord : IterOrder) (key : FlowKey) (timestamp : UInt32) :
    Blind heardFst fun s => getOrCreateFlow ord s key timestamp := by
  intro told s
  refine ite_map Iff.rfl ?_ (((touchFlow_blind key timestamp).bind fun _ _ => rfl) told s)
  refine (makeRoom_blind ord).bindFst (fun full told s => ?_) told s
  cases full with
  | true => simp [heardFst, heard, Except.map]
  | false => exact ((createFlow_blind key timestamp).bind fun _ _ => rfl) told s

theorem applyHandshakeFlags_blind (packet : ParsedPacket) (key : FlowKey) (tcp : TcpFields) :
    Blind heardFst fun s => applyHandshakeFlags s packet key tcp := by
  intro told s
  simp only [applyHandshakeFlags, heard_flows, map_bind]
  refine bind_congr_ok fun flow _ => ite_map Iff.rfl ?_ rfl
  exact ((closeFlow_blind key .rst).bind fun _ _ => rfl) told { s with
    flows := s.flows.insert key (applySynFlags flow (packet.srcIp, tcp.srcPort)
      (packet.dstIp, tcp.dstPort) tcp).onRst
    stats := { s.stats with flowsRst := bump s.stats.flowsRst } }

theorem insertPayloadSegment_blind (packet : ParsedPacket) (key : FlowKey) (tcp : TcpFields)
    (timestamp : UInt32) :
    Blind heardFst fun s => insertPayloadSegment s packet key tcp timestamp := by
  intro told s
  simp only [insertPayloadSegment, heard_flows, heard_config, heard_totalMemory, map_bind]
  refine bind_congr_ok fun flow _ => bind_congr_ok fun out _ => bind_congr_ok fun _ _ =>
    bind_congr_ok fun total _ => ?_
  simp only [Except.map, heardFst, ← reportInsert_heard]
  rfl

theorem checkAnomalyThresholds_blind (packet : ParsedPacket) (key : FlowKey) (dir : Direction)
    (timestamp : UInt32) :
    Blind heard fun s => checkAnomalyThresholds s packet key dir timestamp := by
  intro told s
  simp only [checkAnomalyThresholds, heard_flows, heard_config, map_bind]
  refine bind_congr_ok fun flow _ => ?_
  have hconfig (crossed : Bool) (s : TcpReassembler) (finding : Finding) :
      (pushFindingIf crossed s finding).config = s.config :=
    congrArg View.config (view_pushFindingIf crossed s finding)
  simp only [Except.map, ← pushFindingIf_heard, hconfig]
  rfl

theorem flushContiguousData_blind (key : FlowKey) (dir : Direction) (timestamp : UInt32) :
    Blind heard fun s => flushContiguousData s key dir timestamp := by
  intro told s
  simp only [flushContiguousData, heard_flows, heard_totalMemory, map_bind]
  refine bind_congr_ok fun flow _ => bind_congr_ok fun out _ => bind_congr_ok fun freed _ => ?_
  exact bind_congr_ok fun total _ => deliver_blind key dir out.2 timestamp told { s with
    flows := s.flows.insert key (flow.setDir dir out.1), totalMemory := total }

theorem processPayload_blind (packet : ParsedPacket) (key : FlowKey) (tcp : TcpFields)
    (timestamp : UInt32) : Blind heard fun s => processPayload s packet key tcp timestamp :=
  fun told s => ite_map Iff.rfl rfl <|
    (insertPayloadSegment_blind packet key tcp timestamp).bindFst
      (fun dir => (checkAnomalyThresholds_blind packet key dir timestamp).bind
        (flushContiguousData_blind key dir timestamp)) told s

theorem closeIfFinished_blind (key : FlowKey) : Blind heard fun s => closeIfFinished s key := by
  intro told s
  simp only [closeIfFinished, heard_flows]
  cases s.flows.get? key with
  | none => rfl
  | some flow =>
    exact ite_map Iff.rfl (closeFlow_blind key .fin told
      { s with stats := { s.stats with flowsFin := bump s.stats.flowsFin } }) rfl

theorem enforceMemcap_blind (ord : IterOrder) : Blind heard fun s => enforceMemcap ord s :=
  fun told s => ite_map Iff.rfl (evictFlows_blind ord .memCap told s) rfl

theorem processOnFlow_blind (ord : IterOrder) (packet : ParsedPacket) (key : FlowKey)
    (tcp : TcpFields) (timestamp : UInt32) :
    Blind heard fun s => processOnFlow ord s packet key tcp timestamp := by
  intro told s
  have harrived (e : Event) : { heard told s with events := (heard told s).events ++ [e] } =
      heard told { s with events := s.events ++ [e] } := by simp [heard]
  simp only [processOnFlow, harrived]
  refine (applyHandshakeFlags_blind packet key tcp).bindFst (fun post => ?_) told _
  cases post with
  | flowClosed => exact fun told s => rfl
  | proceed =>
    exact (processPayload_blind packet key tcp timestamp).bind
      ((closeIfFinished_blind key).bind (enforceMemcap_blind ord))

/-- `process_packet` before the packet is looked at. -/
def sweeps (ord : IterOrder) (s : TcpReassembler) (timestamp : UInt32) :
    Checked TcpReassembler := do
  let packetIndex ← checkedInc 64 s.packetIndex
  let s ← sweepByTimestamp ord { s with
    stats := { s.stats with packetsProcessed := bump s.stats.packetsProcessed }
    packetIndex } timestamp
  sweepByPacketIndex ord s

/-- The rest of `process_packet`. -/
def processSwept (ord : IterOrder) (packet : ParsedPacket) (timestamp : UInt32)
    (s : TcpReassembler) : Checked TcpReassembler :=
  match extractTcpContext s packet with
  | (s, none) => .ok s
  | (s, some (key, tcp)) => do
    let s := { s with stats := { s.stats with packetsTcp := bump s.stats.packetsTcp } }
    let (s, found) ← getOrCreateFlow ord s key timestamp
    if found then processOnFlow ord s packet key tcp timestamp else .ok s

theorem processPacket_sweeps (ord : IterOrder) (s : TcpReassembler) (packet : ParsedPacket)
    (timestamp : UInt32) :
    processPacket ord s packet timestamp =
      sweeps ord s timestamp >>= processSwept ord packet timestamp := by
  rw [sweeps, bind_bind]
  exact bind_congr_ok fun index _ => (bind_bind _ _ _).symm

theorem sweeps_blind (ord : IterOrder) (timestamp : UInt32) :
    Blind heard fun s => sweeps ord s timestamp := by
  intro told s
  simp only [sweeps, heard_packetIndex]
  rw [map_bind]
  exact bind_congr_ok fun index _ =>
    (sweepByTimestamp_blind ord timestamp).bind (sweepByPacketIndex_blind ord) told { s with
      stats := { s.stats with packetsProcessed := bump s.stats.packetsProcessed }
      packetIndex := index }

theorem processSwept_blind (ord : IterOrder) (packet : ParsedPacket) (timestamp : UInt32) :
    Blind heard (processSwept ord packet timestamp) := by
  intro told s
  have hcontext : extractTcpContext (heard told s) packet =
      heardFst told (extractTcpContext s packet) := by
    by_cases h : packet.protocol ≠ .tcp
    · simp [extractTcpContext, heardFst, heard, h]
    · simp only [extractTcpContext, if_neg h]
      cases packet.transport <;> rfl
  simp only [processSwept, hcontext]
  obtain ⟨s', ctx⟩ := extractTcpContext s packet
  cases ctx with
  | none => rfl
  | some ctx =>
    obtain ⟨key, tcp⟩ := ctx
    exact (getOrCreateFlow_blind ord key timestamp).bindFst (fun found => by
      cases found with
      | false => exact fun told s => rfl
      | true => exact processOnFlow_blind ord packet key tcp timestamp) told
      { s' with stats := { s'.stats with packetsTcp := bump s'.stats.packetsTcp } }

theorem step_blind (ord : IterOrder) (call : Call) : Blind heard fun s => step ord s call := by
  cases call with
  | packet packet timestamp =>
    intro told s
    simp only [step, processPacket_sweeps]
    exact (sweeps_blind ord timestamp).bind (processSwept_blind ord packet timestamp) told s
  | expire currentTime =>
    exact fun told s => expireWhere_blind ord
      (fun f => f.state == .closed || pastTimeout s.config currentTime f) told s

theorem finalize_blind (ord : IterOrder) : Blind heard fun s => finalize ord s := by
  intro told s
  refine ite_map Iff.rfl rfl ?_
  refine (Blind.foldlM (fun key => closeFlow_blind key .timeout) _).bind ?_ told
    { s with finalized := true, iterations := s.iterations + 1 }
  exact fun told s => ite_map Iff.rfl rfl rfl

/-! ## States that differ in the interleaving -/

/-- The same state, with the events of different flows in another order. -/
structure Alike (s t : TcpReassembler) : Prop where
  rest : t = { s with events := t.events }
  about : ∀ k, about k t.events = about k s.events

theorem Alike.refl (s : TcpReassembler) : Alike s s := ⟨rfl, fun _ => rfl⟩

theorem Alike.trans {s t u : TcpReassembler} (h : Alike s t) (h' : Alike t u) : Alike s u := by
  refine ⟨?_, fun k => (h'.about k).trans (h.about k)⟩
  have hu := h'.rest
  rw [h.rest] at hu
  exact hu

/-- The state as if nothing had happened before. -/
def silent (s : TcpReassembler) : TcpReassembler := { s with events := [] }

theorem heard_silent (s : TcpReassembler) : heard s.events (silent s) = s := by
  simp [heard, silent]

theorem Alike.silent_eq {s t : TcpReassembler} (h : Alike s t) : silent t = silent s := by
  rw [h.rest]
  rfl

theorem Blind.eq_ok {op : TcpReassembler → Checked TcpReassembler} (hop : Blind heard op)
    {s s' : TcpReassembler} (h : op s = .ok s') :
    ∃ r, op (silent s) = .ok r ∧ s' = heard s.events r := by
  rw [← heard_silent s, hop s.events (silent s)] at h
  cases hr : op (silent s) with
  | error e =>
    rw [hr] at h
    cases h
  | ok r =>
    rw [hr] at h
    cases h
    exact ⟨r, rfl, by simp⟩

/-- A blind operation does the same on states that are alike. -/
theorem Blind.follows {op : TcpReassembler → Checked TcpReassembler} (hop : Blind heard op)
    {s t : TcpReassembler} (h : Alike s t) : Follows Alike (op s) (op t) := by
  intro s' hs'
  obtain ⟨r, hr, rfl⟩ := hop.eq_ok hs'
  refine ⟨heard t.events r, ?_, rfl, fun k => ?_⟩
  · have hback := hop t.events (silent t)
    rw [heard_silent, h.silent_eq, hr] at hback
    exact hback
  · simp [about_append, h.about k]

/-- A blind operation adds to the events. -/
theorem Blind.grows {op : TcpReassembler → Checked TcpReassembler} (hop : Blind heard op)
    {s s' : TcpReassembler} (h : op s = .ok s') : ∃ new, s'.events = s.events ++ new := by
  obtain ⟨r, -, rfl⟩ := hop.eq_ok h
  exact ⟨r.events, rfl⟩

/-! ## Two closes -/

/-- The bytes that a close hands out can be counted, if there are any. -/
def Countable (counted : Nat) (chunks : List (Chunk UInt8)) : Prop :=
  chunks = [] ∨ counted + (contents chunks).length < 2 ^ 64

theorem deliver_iff {key : FlowKey} {dir : Direction} {timestamp : UInt32}
    {chunks : List (Chunk UInt8)} {s s' : TcpReassembler} :
    deliver s key dir chunks timestamp = .ok s' ↔
      Countable s.stats.bytesReassembled chunks ∧ s' = handOver s key dir chunks timestamp := by
  constructor
  · refine fun h => ⟨?_, deliver_eq_ok h⟩
    induction chunks generalizing s with
    | nil => exact .inl rfl
    | cons c chunks ih =>
      rw [deliver, List.foldlM_cons, bind_eq_ok] at h
      obtain ⟨s₁, hs₁, hrest⟩ := h
      obtain ⟨n, hn, -⟩ := bind_eq_ok.mp hs₁
      obtain rfl := onData_eq_ok hs₁
      refine .inr ?_
      rcases ih hrest with rfl | hlt
      · unfold checkedAdd at hn
        split at hn
        · simpa [contents]
        · cases hn
      · simpa [handOver, contents, Nat.add_assoc] using hlt
  · rintro ⟨rfl | hlt, rfl⟩
    · rw [deliver_nil, handOver_nil]
    · exact deliver_of_lt key dir timestamp chunks hlt

theorem countable_append {counted : Nat} {l l' : List (Chunk UInt8)} :
    Countable counted (l ++ l') ↔
      Countable counted l ∧ Countable (counted + (contents l).length) l' := by
  have hlength : (contents (l ++ l')).length = (contents l).length + (contents l').length := by
    simp [contents]
  rw [Countable, Countable, Countable, hlength, List.append_eq_nil_iff]
  constructor
  · rintro (⟨rfl, rfl⟩ | hlt)
    · exact ⟨.inl rfl, .inl rfl⟩
    · exact ⟨.inr (by omega), .inr (by omega)⟩
  · rintro ⟨hl, rfl | hlt⟩
    · rcases hl with rfl | hlt
      · exact .inl ⟨rfl, rfl⟩
      · exact .inr hlt
    · exact .inr (by omega)

theorem countable_comm {counted : Nat} {l l' : List (Chunk UInt8)} :
    Countable counted (l ++ l') ↔ Countable counted (l' ++ l) := by
  have hlength : (contents (l ++ l')).length = (contents (l' ++ l)).length := by
    simp [contents, Nat.add_comm]
  rw [Countable, Countable, hlength, List.append_eq_nil_iff, List.append_eq_nil_iff,
    and_comm (a := l = [])]

/-- What a close takes from the table and hands out. -/
structure Leaves (flows : SortedMap FlowKey TcpFlow) (total counted : Nat) (key : FlowKey)
    (f : TcpFlow) (mem : Nat) (client server : List (Nat × List UInt8)) : Prop where
  flow : flows.get? key = some f
  memory : f.memoryUsed = .ok mem
  held : mem ≤ total
  room : Countable counted (client ++ server)
  client : ∃ d, flushContiguous f.clientToServer = .ok (d, client)
  server : ∃ d, flushContiguous f.serverToClient = .ok (d, server)

def without (s : TcpReassembler) (key : FlowKey) (f : TcpFlow) (reason : CloseReason) (mem : Nat)
    (client server : List (Nat × List UInt8)) : TcpReassembler :=
  { s with
    flows := s.flows.erase key
    stats := { s.stats with bytesReassembled := s.stats.bytesReassembled +
      (contents (client ++ server)).length }
    totalMemory := s.totalMemory - mem
    events := s.events ++ closeEvents key f reason client server }

theorem closeFlow_iff {s s' : TcpReassembler} {key : FlowKey} {reason : CloseReason} :
    closeFlow s key reason = .ok s' ↔ ∃ f mem client server,
      Leaves s.flows s.totalMemory s.stats.bytesReassembled key f mem client server ∧
        s' = without s key f reason mem client server := by
  unfold closeFlow
  constructor
  · intro h
    cases hf : s.flows.get? key with
    | none =>
      rw [hf] at h
      cases h
    | some f =>
      rw [hf] at h
      simp only [bind_eq_ok] at h
      obtain ⟨mem, hmem, ⟨_, client⟩, hclient, s₁, hs₁, ⟨_, server⟩, hserver, s₂, hs₂, total,
        htotal, heq⟩ := h
      obtain ⟨hroom₁, rfl⟩ := deliver_iff.mp hs₁
      obtain ⟨hroom₂, rfl⟩ := deliver_iff.mp hs₂
      unfold checkedSub at htotal
      split at htotal
      · rename_i hheld
        cases htotal
        cases heq
        refine ⟨f, mem, client, server, ⟨hf, hmem, hheld,
          countable_append.mpr ⟨hroom₁, hroom₂⟩, ⟨_, hclient⟩, ⟨_, hserver⟩⟩, ?_⟩
        simp [without, handOver, closeEvents, drainEvents, contents, Nat.add_assoc]
      · cases htotal
  · rintro ⟨f, mem, client, server, h, rfl⟩
    obtain ⟨c, hc⟩ := h.client
    obtain ⟨d, hd⟩ := h.server
    obtain ⟨hroom₁, hroom₂⟩ := countable_append.mp h.room
    have hclient : deliver { s with flows := s.flows.erase key } key .clientToServer client
        f.lastSeen = .ok _ := deliver_iff.mpr ⟨hroom₁, rfl⟩
    have hserver : deliver (handOver { s with flows := s.flows.erase key } key .clientToServer
        client f.lastSeen) key .serverToClient server f.lastSeen = .ok _ :=
      deliver_iff.mpr ⟨hroom₂, rfl⟩
    have hheld : mem ≤ (handOver (handOver { s with flows := s.flows.erase key } key
        .clientToServer client f.lastSeen) key .serverToClient server f.lastSeen).totalMemory :=
      h.held
    rw [h.flow]
    simp only [h.memory, hc, hd, ok_bind, hclient, hserver, checkedSub_of_le hheld]
    simp [without, handOver, closeEvents, drainEvents, contents, Nat.add_assoc]

/-- A sweep counts the flow it closes, the end of the capture does not. -/
def counting (counted : Bool) (s : TcpReassembler) : TcpReassembler :=
  { s with stats := { s.stats with
    flowsExpired := if counted then bump s.stats.flowsExpired else s.stats.flowsExpired } }

def timeOut (counted : Bool) (s : TcpReassembler) (key : FlowKey) : Checked TcpReassembler :=
  closeFlow (counting counted s) key .timeout

theorem timeOut_blind (counted : Bool) (key : FlowKey) :
    Blind heard fun s => timeOut counted s key := fun told s =>
  closeFlow_blind key .timeout told (counting counted s)

theorem erase_comm (flows : SortedMap FlowKey TcpFlow) (i j : FlowKey) :
    (flows.erase i).erase j = (flows.erase j).erase i := by
  refine SortedMap.ext_get? fun k => ?_
  by_cases hi : k = i
  · subst hi
    by_cases hj : k = j
    · subst hj
      rfl
    · rw [SortedMap.get?_erase_of_ne _ hj, SortedMap.get?_erase_self, SortedMap.get?_erase_self]
  · rw [SortedMap.get?_erase_of_ne (flows.erase j) hi]
    by_cases hj : k = j
    · subst hj
      rw [SortedMap.get?_erase_self, SortedMap.get?_erase_self]
    · rw [SortedMap.get?_erase_of_ne _ hj, SortedMap.get?_erase_of_ne _ hi,
        SortedMap.get?_erase_of_ne _ hj]

/-- The events of two flows can change places. -/
theorem about_swap {i j : FlowKey} (hij : i ≠ j) {mine yours : List Event}
    (hmine : ∀ e ∈ mine, eventKey e = i) (hyours : ∀ e ∈ yours, eventKey e = j)
    (events : List Event) (k : FlowKey) :
    about k (events ++ yours ++ mine) = about k (events ++ mine ++ yours) := by
  simp only [about_append, List.append_assoc]
  by_cases hk : k = i
  · have hnone : about k yours = [] := about_other fun e he => by
      rw [hyours e he, hk]
      exact hij.symm
    rw [hnone, List.nil_append, List.append_nil]
  · have hnone : about k mine = [] := about_other fun e he => by
      rw [hmine e he]
      exact fun h => hk h.symm
    rw [hnone, List.nil_append, List.append_nil]

theorem timeOut_swap (counted : Bool) (s : TcpReassembler) (i j : FlowKey) :
    Follows Alike (timeOut counted s i >>= fun t => timeOut counted t j)
      (timeOut counted s j >>= fun t => timeOut counted t i) := by
  by_cases hij : i = j
  · subst hij
    exact .of_eq Alike.refl rfl
  · intro u hu
    rw [bind_eq_ok] at hu
    obtain ⟨t, hi, hj⟩ := hu
    obtain ⟨f, mem, client, server, hf, rfl⟩ := closeFlow_iff.mp hi
    obtain ⟨g, mem', client', server', hg, rfl⟩ := closeFlow_iff.mp hj
    have hg_flow : s.flows.get? j = some g := by
      have h : (s.flows.erase i).get? j = some g := hg.flow
      rwa [SortedMap.get?_erase_of_ne _ (Ne.symm hij)] at h
    have hf_flow : (s.flows.erase j).get? i = some f := by
      rw [SortedMap.get?_erase_of_ne _ hij]
      exact hf.flow
    have hheld : mem ≤ s.totalMemory := hf.held
    have hheld' : mem' ≤ s.totalMemory - mem := hg.held
    obtain ⟨hroom', hroom⟩ := countable_append.mp
      (countable_comm.mp (countable_append.mpr ⟨hf.room, hg.room⟩))
    have hleaves : Leaves s.flows s.totalMemory s.stats.bytesReassembled j g mem' client' server' :=
      ⟨hg_flow, hg.memory, Nat.le_trans hheld' (Nat.sub_le _ _), hroom', hg.client, hg.server⟩
    have hleaves' : Leaves (s.flows.erase j) (s.totalMemory - mem')
        (s.stats.bytesReassembled + (contents (client' ++ server')).length) i f mem client server :=
      ⟨hf_flow, hf.memory, by omega, hroom, hf.client, hf.server⟩
    refine ⟨_, bind_eq_ok.mpr ⟨_, closeFlow_iff.mpr ⟨g, mem', client', server', hleaves, rfl⟩,
      closeFlow_iff.mpr ⟨f, mem, client, server, hleaves', rfl⟩⟩, ?_, fun k => ?_⟩
    · simp only [without, counting, erase_comm s.flows i j,
        Nat.sub_right_comm s.totalMemory mem mem', Nat.add_right_comm s.stats.bytesReassembled]
    · exact about_swap hij (eventKey_closeEvents _ _ _ _ _) (eventKey_closeEvents _ _ _ _ _)
        s.events k

theorem timeOut_foldlM (counted : Bool) {keys keys' : List FlowKey} (hperm : keys.Perm keys')
    (s : TcpReassembler) :
    Follows Alike (keys.foldlM (timeOut counted) s) (keys'.foldlM (timeOut counted) s) :=
  foldlM_perm Alike.refl (fun _ _ _ => Alike.trans)
    (fun _ _ key h => (timeOut_blind counted key).follows h)
    (timeOut_swap counted) hperm (Alike.refl s)

section Orders

variable (ord ord' : IterOrder)

theorem visit_perm (n : Nat) (entries : List (FlowKey × TcpFlow)) :
    (ord.visit n entries).Perm (ord'.visit n entries) :=
  (ord.perm n entries).trans (ord'.perm n entries).symm

theorem expireWhere_orders (s : TcpReassembler) (idle : TcpFlow → Bool) :
    Follows Alike (expireWhere ord s idle) (expireWhere ord' s idle) :=
  timeOut_foldlM true (((visit_perm ord ord' _ _).filter _).map _)
    { s with iterations := s.iterations + 1 }

/-- A step under one order, on states that are alike, followed under the other. -/
theorem follows_orders (op : IterOrder → TcpReassembler → Checked TcpReassembler)
    (horders : ∀ s, Follows Alike (op ord s) (op ord' s)) (hblind : Blind heard (op ord'))
    {s t : TcpReassembler} (h : Alike s t) : Follows Alike (op ord s) (op ord' t) :=
  Follows.trans (R := Alike) (S := Alike) (fun _ _ _ => Alike.trans) (horders s) (hblind.follows h)

theorem sweeps_orders (s : TcpReassembler) (timestamp : UInt32) :
    Follows Alike (sweeps ord s timestamp) (sweeps ord' s timestamp) := by
  refine Follows.bind (R := Eq) (.of_eq (fun _ => rfl) rfl) fun index _ heq => ?_
  subst heq
  refine Follows.bind (R := Alike) ?_ fun a b hab => follows_orders ord ord'
    (fun ord s => sweepByPacketIndex ord s) (fun t => ?_) (sweepByPacketIndex_blind ord') hab
  · unfold sweepByTimestamp
    split
    · exact expireWhere_orders ord ord' _ _
    · exact .of_eq Alike.refl rfl
  · unfold sweepByPacketIndex
    split
    · exact expireWhere_orders ord ord' _ _
    · exact .of_eq Alike.refl rfl

/-! ## No eviction -/

def isEviction : Event → Bool
  | .onFlowClose _ .memoryPressure => true
  | _ => false

/-- No flow has been evicted. -/
def Unpressed (s : TcpReassembler) : Prop := ∀ e ∈ s.events, isEviction e = false

instance (s : TcpReassembler) : Decidable (Unpressed s) :=
  inferInstanceAs (Decidable (∀ e ∈ s.events, isEviction e = false))

theorem Unpressed.before {op : TcpReassembler → Checked TcpReassembler} (hop : Blind heard op)
    {s s' : TcpReassembler} (h : op s = .ok s') (hs' : Unpressed s') : Unpressed s := by
  obtain ⟨new, hnew⟩ := hop.grows h
  intro e he
  exact hs' e (hnew ▸ List.mem_append_left new he)

theorem evictLoop_unpressed {target : Nat} {s s' : TcpReassembler} {keys : List FlowKey}
    (h : evictLoop target s keys = .ok s') (hs' : Unpressed s') :
    s' = s ∧ (keys = [] ∨ (s.totalMemory ≤ s.config.memcap ∧ s.flows.size ≤ target)) := by
  cases keys with
  | nil =>
    cases h
    exact ⟨rfl, .inl rfl⟩
  | cons key keys =>
    rw [evictLoop] at h
    split at h
    · rename_i hdone
      cases h
      exact ⟨rfl, .inr hdone⟩
    · rw [bind_eq_ok] at h
      obtain ⟨s₁, hclose, hrest⟩ := h
      obtain ⟨f, mem, client, server, -, rfl⟩ := closeFlow_iff.mp hclose
      have hs₁ := hs'.before (evictLoop_blind target keys) hrest
      have hclosed := hs₁ (.onFlowClose key .memoryPressure) (by simp [without, closeEvents])
      cases hclosed

theorem evictLoop_done {target : Nat} {s : TcpReassembler} {keys : List FlowKey}
    (h : keys = [] ∨ (s.totalMemory ≤ s.config.memcap ∧ s.flows.size ≤ target)) :
    evictLoop target s keys = .ok s := by
  cases keys with
  | nil => rfl
  | cons key keys =>
    rw [evictLoop, if_pos (h.resolve_left (List.cons_ne_nil _ _))]

variable {ord}

theorem evictFlows_orders {s s' : TcpReassembler} {trigger : EvictionTrigger}
    (h : evictFlows ord s trigger = .ok s') (hs' : Unpressed s') :
    evictFlows ord' s trigger = .ok s' := by
  simp only [evictFlows, bind_eq_ok] at h ⊢
  obtain ⟨target, htarget, hloop⟩ := h
  obtain ⟨rfl, hdone⟩ := evictLoop_unpressed hloop hs'
  refine ⟨target, htarget, evictLoop_done (hdone.imp_left fun hnil => ?_)⟩
  -- the other order visits as many entries
  have hperm := visit_perm ord ord' s.iterations s.flows.entries
  have hlength := congrArg List.length hnil
  simp only [List.length_map, List.length_insertionSort, List.length_nil] at hlength
  refine List.length_eq_zero_iff.mp ?_
  rw [List.length_map, List.length_insertionSort, ← hperm.length_eq]
  exact hlength

theorem makeRoom_orders {s : TcpReassembler} {out : TcpReassembler × Bool}
    (h : makeRoom ord s = .ok out) (hout : Unpressed out.1) : makeRoom ord' s = .ok out := by
  unfold makeRoom at h ⊢
  split
  · rename_i hfull
    rw [if_pos hfull, bind_eq_ok] at h
    obtain ⟨s', hevict, heq⟩ := h
    cases heq
    exact bind_eq_ok.mpr ⟨s', evictFlows_orders ord' hevict hout, rfl⟩
  · rename_i hroom
    rwa [if_neg hroom] at h

theorem getOrCreateFlow_orders {s : TcpReassembler} {key : FlowKey} {timestamp : UInt32}
    {out : TcpReassembler × Bool} (h : getOrCreateFlow ord s key timestamp = .ok out)
    (hout : Unpressed out.1) : getOrCreateFlow ord' s key timestamp = .ok out := by
  unfold getOrCreateFlow at h ⊢
  split
  · rename_i hnew
    rw [if_pos hnew, bind_eq_ok] at h
    obtain ⟨⟨s₁, full⟩, hroom, hrest⟩ := h
    refine bind_eq_ok.mpr ⟨(s₁, full), makeRoom_orders ord' hroom ?_, hrest⟩
    cases full with
    | true =>
      cases hrest
      exact fun e he => hout e (List.mem_append_left _ he)
    | false =>
      simp only [Bool.false_eq_true, if_false, bind_eq_ok] at hrest
      obtain ⟨s₂, hcreate, heq⟩ := hrest
      cases heq
      exact hout.before (createFlow_blind key timestamp) hcreate
  · rename_i hknown
    rwa [if_neg hknown] at h

theorem enforceMemcap_orders {s s' : TcpReassembler} (h : enforceMemcap ord s = .ok s')
    (hs' : Unpressed s') : enforceMemcap ord' s = .ok s' := by
  unfold enforceMemcap at h ⊢
  split
  · rename_i hover
    rw [if_pos hover] at h
    exact evictFlows_orders ord' h hs'
  · rename_i hfits
    rwa [if_neg hfits] at h

theorem processOnFlow_orders {s s' : TcpReassembler} {packet : ParsedPacket} {key : FlowKey}
    {tcp : TcpFields} {timestamp : UInt32}
    (h : processOnFlow ord s packet key tcp timestamp = .ok s') (hs' : Unpressed s') :
    processOnFlow ord' s packet key tcp timestamp = .ok s' := by
  simp only [processOnFlow, bind_eq_ok] at h ⊢
  obtain ⟨⟨s₁, post⟩, hflags, hrest⟩ := h
  refine ⟨(s₁, post), hflags, ?_⟩
  cases post with
  | flowClosed => exact hrest
  | proceed =>
    simp only [bind_eq_ok] at hrest ⊢
    obtain ⟨s₂, hpayload, s₃, hfin, hcap⟩ := hrest
    exact ⟨s₂, hpayload, s₃, hfin, enforceMemcap_orders ord' hcap hs'⟩

theorem processSwept_orders {s s' : TcpReassembler} {packet : ParsedPacket} {timestamp : UInt32}
    (h : processSwept ord packet timestamp s = .ok s') (hs' : Unpressed s') :
    processSwept ord' packet timestamp s = .ok s' := by
  unfold processSwept at h ⊢
  generalize extractTcpContext s packet = context at h ⊢
  obtain ⟨s₁, ctx⟩ := context
  cases ctx with
  | none => exact h
  | some ctx =>
    obtain ⟨key, tcp⟩ := ctx
    simp only [bind_eq_ok] at h ⊢
    obtain ⟨⟨s₂, found⟩, hget, hrest⟩ := h
    cases found with
    | false =>
      cases hrest
      exact ⟨_, getOrCreateFlow_orders ord' hget hs', rfl⟩
    | true =>
      have hs₂ := hs'.before (processOnFlow_blind ord packet key tcp timestamp) hrest
      exact ⟨_, getOrCreateFlow_orders ord' hget hs₂, processOnFlow_orders ord' hrest hs'⟩

/-! ## Runs -/

theorem step_orders {s s' : TcpReassembler} {call : Call} (h : step ord s call = .ok s')
    (hs' : Unpressed s') {t : TcpReassembler} (hst : Alike s t) :
    ∃ t', step ord' t call = .ok t' ∧ Alike s' t' := by
  cases call with
  | expire currentTime =>
    exact follows_orders ord ord' (fun ord s => step ord s (.expire currentTime))
      (fun s => expireWhere_orders ord ord' s fun f =>
        f.state == .closed || pastTimeout s.config currentTime f)
      (step_blind ord' (.expire currentTime)) hst s' h
  | packet packet timestamp =>
    simp only [step, processPacket_sweeps, bind_eq_ok] at h ⊢
    obtain ⟨s₁, hsweeps, hrest⟩ := h
    obtain ⟨t₁, ht₁, halike⟩ := follows_orders ord ord' (fun ord s => sweeps ord s timestamp)
      (fun s => sweeps_orders ord ord' s timestamp) (sweeps_blind ord' timestamp) hst s₁ hsweeps
    obtain ⟨t', ht', halike'⟩ := (processSwept_blind ord' packet timestamp).follows halike s'
      (processSwept_orders ord' hrest hs')
    exact ⟨t', ⟨t₁, ht₁, ht'⟩, halike'⟩

variable (ord) in
theorem finalize_orders {s t : TcpReassembler} (h : Alike s t) :
    Follows Alike (finalize ord s) (finalize ord' t) := by
  refine follows_orders ord ord' (fun ord s => finalize ord s) (fun s => ?_)
    (finalize_blind ord') h
  unfold finalize
  split
  · exact .of_eq Alike.refl rfl
  · refine (timeOut_foldlM false ((visit_perm ord ord' _ _).map _)
      { s with finalized := true, iterations := s.iterations + 1 }).bind fun a b hab => ?_
    have hlimit : Blind heard fun s => if s.stats.segmentsSegmentLimit > 0 then
        (.ok { s with findings := s.findings ++
          [segmentLimitFinding s.stats.segmentsSegmentLimit] } : Checked TcpReassembler)
      else .ok s := fun told s => ite_map Iff.rfl rfl rfl
    exact hlimit.follows hab

/-- If no flow is evicted, the order in which the flow table is iterated over makes no difference:
the table, the statistics and the findings are the same at the end of the capture, and so is what
the handler has been told of each flow. -/
theorem run_orders (ord ord' : IterOrder) (s₀ s : TcpReassembler) (calls : List Call)
    (hrun : (do finalize ord (← run (step ord) s₀ calls)) = .ok s) (hs : Unpressed s) :
    ∃ t, (do finalize ord' (← run (step ord') s₀ calls)) = .ok t ∧ Alike s t := by
  rw [bind_eq_ok] at hrun
  obtain ⟨s₁, hcalls, hfinal⟩ := hrun
  have hs₁ := hs.before (finalize_blind ord) hfinal
  have hstep : ∀ s call s', True → step ord s call = .ok s' → True ∧ (Unpressed s' → Unpressed s ∧
      ∀ t, Alike s t → (true = true → ∃ t', step ord' t call = .ok t' ∧ Alike s' t') ∧
        (true = false → Alike s' t)) := by
    intro s call s' _ hs'
    refine ⟨trivial, fun hu => ⟨hu.before (step_blind ord call) hs', fun t hst => ⟨fun _ => ?_,
      fun h => by cases h⟩⟩⟩
    exact step_orders ord' hs' hu hst
  obtain ⟨-, hproj⟩ := run_projects hstep calls trivial (Alike.refl s₀) hcalls
  obtain ⟨-, t₁, ht₁, halike⟩ := hproj hs₁
  rw [List.filter_true] at ht₁
  obtain ⟨t, ht, halike'⟩ := finalize_orders ord ord' halike s hfinal
  exact ⟨t, bind_eq_ok.mpr ⟨t₁, ht₁, ht⟩, halike'⟩

end Orders

/-- Iteration against the key order. -/
def backwards : IterOrder := ⟨fun _ l => l.reverse, fun _ l => l.reverse_perm⟩

/-- Two flows that are open at the end of the capture, closed in either order. -/
theorem run_orders_backwards : ∃ s₀ s t, TcpReassembler.new .default = .ok s₀ ∧
    (do finalize keyOrder (← run (step keyOrder) s₀ [.segment left right 7 true false false [],
      .segment left (.v4 3, 90) 5 false false false [2]])) = .ok s ∧ Unpressed s ∧
    (do finalize backwards (← run (step backwards) s₀ [.segment left right 7 true false false [],
      .segment left (.v4 3, 90) 5 false false false [2]])) = .ok t ∧ Alike s t := by
  obtain ⟨s₀, hnew⟩ : ∃ s₀, TcpReassembler.new .default = .ok s₀ := ⟨_, rfl⟩
  have horders := fun s => run_orders keyOrder backwards s₀ s
    [.segment left right 7 true false false [], .segment left (.v4 3, 90) 5 false false false [2]]
  cases hnew
  obtain ⟨t, ht, halike⟩ := horders _ rfl (by decide)
  exact ⟨_, _, t, rfl, rfl, by decide, ht, halike⟩

end Wirerust.Orders
