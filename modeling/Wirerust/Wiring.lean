import Wirerust.Analyzer.EnipClosing
import Wirerust.Analyzer.HttpSides
import Wirerust.Analyzer.Iec104Closing
import Wirerust.Analyzer.Iec104Stream
import Wirerust.Analyzer.TlsRecords
import Wirerust.CoverageGaps
import Wirerust.Lib.Closing
import Wirerust.Reassembly.Volume

/-!
The analyzers behind the dispatcher.

The dispatcher leaves open what four of its analyzers do with a flow. Here they are given: every
analyzer with `on_data` and `on_flow_close` is a `TableAnalyzer`, whose table has nothing but the
keys of its flows and whose shared part is the analyzer itself. `table_run` says that the dispatcher
then drives the analyzer as the code does. `analyzers` are those of `run_analyze`.
-/

namespace Wirerust.Wiring

open Lib Wirerust.Flow Wirerust.Analyzer Wirerust.Dispatcher

/-! ## Analyzers of streams -/

/-- The `StreamHandler` of an analyzer. -/
structure Streaming (σ : Type) where
  onData : σ → Chunk → Checked σ
  onFlowClose : σ → FlowKey → σ

namespace Streaming

variable {σ : Type}

def step (m : Streaming σ) (s : σ) : Input → Checked σ
  | .data c => m.onData s c
  | .close flowKey _ => .ok (m.onFlowClose s flowKey)

/-- An entry remembers the key it is for. -/
abbrev code (m : Streaming σ) : TableAnalyzer where
  FlowEntry := Option FlowKey
  Shared := σ
  fresh := none
  step := fun s _ c => do
    let s ← m.onData s c
    .ok (s, some c.flowKey)
  retire := fun s entry =>
    match entry with
    | some flowKey => m.onFlowClose s flowKey
    | none => s

/-- The table of flows that an analyzer has of its own. -/
structure Keyed (m : Streaming σ) {ν : Type} (flows : σ → SortedMap FlowKey ν) : Prop where
  onData : ∀ s c s', m.onData s c = .ok s' → Touches c.flowKey (flows s) (flows s')
  onFlowClose : ∀ s flowKey, flows (m.onFlowClose s flowKey) = (flows s).erase flowKey
  unknown : ∀ s flowKey, (flows s).get? flowKey = none → m.onFlowClose s flowKey = s

end Streaming

section Table

variable {σ ν : Type} {m : Streaming σ} {flows : σ → SortedMap FlowKey ν}

def tableStep (code : TableAnalyzer) (t : Table code) : Input → Checked (Table code)
  | .data c => t.onData c
  | .close flowKey _ => .ok (t.onFlowClose flowKey)

def table (keys : SortedMap FlowKey (Option FlowKey)) (s : σ) : Table m.code := ⟨keys, s⟩

def keysOf (t : Table m.code) : SortedMap FlowKey (Option FlowKey) := t.flows

def stateOf (t : Table m.code) : σ := t.shared

/-- Every flow of the analyzer has its key in the table. -/
structure Tracks (flows : σ → SortedMap FlowKey ν) (t : Table m.code) : Prop where
  own : ∀ k entry, (keysOf t).get? k = some entry → entry = some k
  known : ∀ k, (keysOf t).get? k = none → (flows (stateOf t)).get? k = none

theorem tracks_new {s : σ} (hs : flows s = .empty) : Tracks (m := m) flows (Table.new s) where
  own := fun k entry h => by cases h
  known := fun k _ => by
    change (flows s).get? k = none
    rw [hs]
    rfl

theorem table_onData (t : Table m.code) (c : Chunk) :
    t.onData c = (m.onData (stateOf t) c).map
      (table ((keysOf t).insert c.flowKey (some c.flowKey))) := by
  change ((m.onData (stateOf t) c >>= fun s => .ok (s, some c.flowKey)) >>= fun r =>
    .ok (table ((keysOf t).insert c.flowKey r.2) r.1)) = _
  cases m.onData (stateOf t) c with
  | error e => rfl
  | ok s => rfl

/-- The table after a chunk, if the analyzer comes back. -/
theorem table_onData_cases (t : Table m.code) (c : Chunk) :
    (∃ e, m.onData (stateOf t) c = .error e ∧ t.onData c = .error e) ∨
      ∃ s, m.onData (stateOf t) c = .ok s ∧
        t.onData c = .ok (table ((keysOf t).insert c.flowKey (some c.flowKey)) s) := by
  rw [table_onData]
  cases m.onData (stateOf t) c with
  | error e => exact .inl ⟨e, rfl, rfl⟩
  | ok s => exact .inr ⟨s, rfl, rfl⟩

theorem table_onFlowClose (t : Table m.code) (flowKey : FlowKey) :
    keysOf (t.onFlowClose flowKey) = (keysOf t).erase flowKey :=
  Table.onFlowClose_flows t flowKey

theorem Tracks.onData (hm : m.Keyed flows) {t : Table m.code} (h : Tracks flows t) {c : Chunk}
    {s : σ} (hs : m.onData (stateOf t) c = .ok s) :
    Tracks flows (table (m := m) ((keysOf t).insert c.flowKey (some c.flowKey)) s) := by
  refine ⟨fun k entry hk => ?_, fun k hk => ?_⟩
  · change ((keysOf t).insert c.flowKey (some c.flowKey)).get? k = some entry at hk
    by_cases hkey : k = c.flowKey
    · rw [hkey, SortedMap.get?_insert_self] at hk
      rw [hkey]
      exact (Option.some.inj hk).symm
    · rw [SortedMap.get?_insert_of_ne _ _ hkey] at hk
      exact h.own k entry hk
  · change ((keysOf t).insert c.flowKey (some c.flowKey)).get? k = none at hk
    change (flows s).get? k = none
    by_cases hkey : k = c.flowKey
    · rw [hkey, SortedMap.get?_insert_self] at hk
      cases hk
    · rw [SortedMap.get?_insert_of_ne _ _ hkey] at hk
      rw [hm.onData (stateOf t) c s hs k hkey]
      exact h.known k hk

/-- Closing a flow in the table closes it in the analyzer. -/
theorem Tracks.stateOf_onFlowClose (hm : m.Keyed flows) {t : Table m.code} (h : Tracks flows t)
    (flowKey : FlowKey) : stateOf (t.onFlowClose flowKey) = m.onFlowClose (stateOf t) flowKey := by
  cases hentry : (keysOf t).get? flowKey with
  | none =>
    have hclose : t.onFlowClose flowKey = t := by
      unfold Table.onFlowClose
      rw [show t.flows.get? flowKey = none from hentry]
    rw [hclose, hm.unknown (stateOf t) flowKey (h.known flowKey hentry)]
  | some entry =>
    obtain rfl := h.own flowKey entry hentry
    unfold Table.onFlowClose
    rw [show t.flows.get? flowKey = some (some flowKey) from hentry]
    rfl

theorem Tracks.onFlowClose (hm : m.Keyed flows) {t : Table m.code} (h : Tracks flows t)
    (flowKey : FlowKey) : Tracks flows (t.onFlowClose flowKey) := by
  refine ⟨fun k entry hk => ?_, fun k hk => ?_⟩
  · rw [table_onFlowClose] at hk
    by_cases hkey : k = flowKey
    · rw [hkey, SortedMap.get?_erase_self] at hk
      cases hk
    · rw [SortedMap.get?_erase_of_ne _ hkey] at hk
      exact h.own k entry hk
  · rw [h.stateOf_onFlowClose hm, hm.onFlowClose]
    by_cases hkey : k = flowKey
    · rw [hkey, SortedMap.get?_erase_self]
    · rw [table_onFlowClose, SortedMap.get?_erase_of_ne _ hkey] at hk
      rw [SortedMap.get?_erase_of_ne _ hkey]
      exact h.known k hk

/-- Whatever calls the dispatcher makes of the table, the analyzer has been given them. -/
theorem table_run (hm : m.Keyed flows) {t : Table m.code} (h : Tracks flows t)
    (inputs : List Input) :
    (run (tableStep m.code) t inputs).map stateOf = run m.step (stateOf t) inputs := by
  induction inputs generalizing t with
  | nil => rfl
  | cons i inputs ih =>
    rw [run_cons, run_cons, map_bind]
    cases i with
    | close flowKey reason =>
      change (run (tableStep m.code) (t.onFlowClose flowKey) inputs).map stateOf =
        run m.step (m.onFlowClose (stateOf t) flowKey) inputs
      rw [ih (h.onFlowClose hm flowKey), h.stateOf_onFlowClose hm]
    | data c =>
      change (t.onData c >>= fun t => (run (tableStep m.code) t inputs).map stateOf) =
        m.onData (stateOf t) c >>= fun s => run m.step s inputs
      rcases table_onData_cases t c with ⟨e, hs, ht⟩ | ⟨s, hs, ht⟩
      · rw [hs, ht]
        rfl
      · rw [hs, ht]
        exact ih (h.onData hm hs)

end Table

/-! ## The analyzers of the repository -/

def http (lib : Http.Httparse) : Streaming Http.HttpAnalyzer where
  onData := fun s c => Http.onData lib s c.flowKey c.direction c.data c.timestamp
  onFlowClose := Http.onFlowClose

def tls (lib : Tls.TlsParser) : Streaming Tls.TlsAnalyzer where
  onData := fun s c => Tls.onData lib s c.flowKey c.direction c.data c.timestamp
  onFlowClose := Tls.onFlowClose

def enip : Streaming Enip.EnipAnalyzer where
  onData := fun s c => Enip.onData s ⟨c.flowKey, c.timestamp, c.direction⟩ c.data
  onFlowClose := Enip.onFlowClose

def iec104 : Streaming Iec104.Iec104Analyzer where
  onData := fun s c => Iec104.onData s ⟨c.flowKey, c.timestamp, c.direction⟩ c.data
  onFlowClose := Iec104.onFlowClose

section Keyed

theorem http_flows {lib : Http.Httparse} {s s' : Http.HttpAnalyzer} {c : Chunk}
    (h : (http lib).onData s c = .ok s') :
    ∃ flow, s'.flows = s.flows.insert c.flowKey flow := by
  simp only [http, Http.onData] at h
  split at h
  · obtain ⟨skipped, -, heq⟩ := bind_eq_ok.mp h
    cases heq
    exact ⟨_, rfl⟩
  · obtain ⟨w, hw, heq⟩ := bind_eq_ok.mp h
    cases heq
    have hworks := (Http.tryParseSide_works lib c.direction s _).2 w hw
    exact ⟨w.2, by rw [hworks.flows]⟩

theorem http_keyed (lib : Http.Httparse) : (http lib).Keyed Http.HttpAnalyzer.flows where
  onData := fun s c s' h => by
    obtain ⟨flow, hflow⟩ := http_flows h
    rw [hflow]
    exact touches_insert c.flowKey s.flows flow
  onFlowClose := fun _ _ => rfl
  unknown := fun s flowKey h => by
    change { s with flows := s.flows.erase flowKey } = s
    rw [SortedMap.erase_of_none _ h]

theorem tls_keyed (lib : Tls.TlsParser) : (tls lib).Keyed Tls.TlsAnalyzer.flows where
  onData := fun s c s' h => by
    cases hdone : (Tls.flowOf s c.flowKey).done with
    | true =>
      have hsame := Tls.onData_of_done hdone lib c.direction c.data c.timestamp
      obtain rfl : s = s' := Except.ok.inj (hsame.symm.trans h)
      exact fun _ _ => rfl
    | false =>
      have hcalled := Tls.onData_called lib s c.flowKey c.direction c.data c.timestamp hdone
      obtain ⟨flow, hflow⟩ := (hcalled.2 s' h).flows
      rw [hflow]
      exact touches_insert c.flowKey s.flows flow
  onFlowClose := fun _ _ => rfl
  unknown := fun s flowKey h => by
    change { s with flows := s.flows.erase flowKey } = s
    rw [SortedMap.erase_of_none _ h]

theorem enip_keyed : enip.Keyed Enip.EnipAnalyzer.flows where
  onData := fun s c s' h k hk => by
    have hflows : ∃ flow, s'.flows = (s.flows.erase c.flowKey).insert c.flowKey flow := by
      cases hopen : (Enip.flowOf s c.flowKey).isNonEnip with
      | true =>
        have hkept : ((s.flows.get? c.flowKey).getD {}).isNonEnip = true := hopen
        simp only [enip, Enip.onData, if_pos hkept] at h
        cases h
        exact ⟨_, rfl⟩
      | false =>
        obtain ⟨flow, hflow, -⟩ := (Enip.onData_called s _ c.data hopen).2 s' h
        exact ⟨flow, hflow⟩
    obtain ⟨flow, hflow⟩ := hflows
    rw [hflow, SortedMap.get?_insert_of_ne _ flow hk, SortedMap.get?_erase_of_ne _ hk]
  onFlowClose := Enip.flows_onFlowClose
  unknown := fun s flowKey h => Enip.onFlowClose_of_none h

theorem iec104_keyed : iec104.Keyed Iec104.Iec104Analyzer.flows where
  onData := fun s c s' h => by
    obtain ⟨w, -, heq⟩ := bind_eq_ok.mp h
    cases heq
    exact touches_insert c.flowKey s.flows w.flow
  onFlowClose := Iec104.flows_onFlowClose
  unknown := fun s flowKey h => Iec104.onFlowClose_of_none h

end Keyed

def modbus : Streaming Modbus.ModbusAnalyzer where
  onData := fun s c => Modbus.onData s c.flowKey c.direction c.data c.timestamp
  onFlowClose := Modbus.onFlowClose

def dnp3 (ord : Dnp3.PendingOrder) : Streaming Dnp3.Dnp3Analyzer where
  onData := fun s c => Dnp3.onData ord s c.flowKey c.data c.timestamp c.direction
  onFlowClose := Dnp3.onFlowClose

/-- The parsers of other packages, and the order of the hash map of DNP3. -/
structure Libraries where
  httparse : Http.Httparse
  tlsParser : Tls.TlsParser
  pendingOrder : Dnp3.PendingOrder

def analyzers (libs : Libraries) : Analyzers where
  http := (http libs.httparse).code
  tls := (tls libs.tlsParser).code
  enip := enip.code
  iec104 := iec104.code
  pendingOrder := libs.pendingOrder

/-! ## What the dispatcher keeps -/

/-- The bytes of an input. -/
def inputBytes : Input → Nat
  | .data c => c.data.length
  | .close _ _ => 0

/-- Invariants of the six analyzers, after so many bytes. -/
structure Invariants where
  http : Nat → Http.HttpAnalyzer → Prop
  tls : Nat → Tls.TlsAnalyzer → Prop
  modbus : Nat → Modbus.ModbusAnalyzer → Prop
  dnp3 : Nat → Dnp3.Dnp3Analyzer → Prop
  enip : Nat → Enip.EnipAnalyzer → Prop
  iec104 : Nat → Iec104.Iec104Analyzer → Prop

/-- Every analyzer keeps its invariant, and comes back while there are fewer bytes than `limit`. -/
structure Invariants.Last (I : Invariants) (libs : Libraries) (limit : Nat) : Prop where
  http : Lasts limit (Wiring.http libs.httparse).step inputBytes I.http
  tls : Lasts limit (Wiring.tls libs.tlsParser).step inputBytes I.tls
  modbus : Lasts limit Wiring.modbus.step inputBytes I.modbus
  dnp3 : Lasts limit (Wiring.dnp3 libs.pendingOrder).step inputBytes I.dnp3
  enip : Lasts limit Wiring.enip.step inputBytes I.enip
  iec104 : Lasts limit Wiring.iec104.step inputBytes I.iec104

section Slots

variable {σ ν : Type} {m : Streaming σ} {flows : σ → SortedMap FlowKey ν} {I : Nat → σ → Prop}
  {limit n : Nat}

/-- The invariant of an analyzer that may not be there. -/
def Held (I : Nat → σ → Prop) (n : Nat) (slot : Option σ) : Prop := ∀ s, slot = some s → I n s

/-- The same of one that is a table. -/
def HeldTable (m : Streaming σ) (flows : σ → SortedMap FlowKey ν) (I : Nat → σ → Prop) (n : Nat)
    (slot : Option (Table m.code)) : Prop :=
  ∀ t, slot = some t → Tracks flows t ∧ I n (stateOf t)

theorem Held.mono (hI : Lasts limit m.step inputBytes I) {slot : Option σ} (h : Held I n slot)
    {n' : Nat} (hle : n ≤ n') : Held I n' slot := fun s hs => hI.mono n n' s hle (h s hs)

theorem HeldTable.mono (hI : Lasts limit m.step inputBytes I) {slot : Option (Table m.code)}
    (h : HeldTable m flows I n slot) {n' : Nat} (hle : n ≤ n') : HeldTable m flows I n' slot :=
  fun t ht => ⟨(h t ht).1, hI.mono n n' _ hle (h t ht).2⟩

theorem Held.feed (hI : Lasts limit m.step inputBytes I) {slot : Option σ} (h : Held I n slot)
    (c : Chunk) : ReturnsIf (n + c.data.length < limit) (feed (fun s => m.onData s c) slot)
      (Held I (n + c.data.length)) := by
  cases slot with
  | none => exact .pure fun s hs => by cases hs
  | some s =>
    refine (hI.step n s (.data c) (h s rfl)).bind fun s' hs' => .pure fun t ht => ?_
    cases ht
    exact hs'

theorem HeldTable.feed (hm : m.Keyed flows) (hI : Lasts limit m.step inputBytes I)
    {slot : Option (Table m.code)} (h : HeldTable m flows I n slot) (c : Chunk) :
    ReturnsIf (n + c.data.length < limit) (feed (fun t => t.onData c) slot)
      (HeldTable m flows I (n + c.data.length)) := by
  cases slot with
  | none => exact .pure fun t ht => by cases ht
  | some t =>
    obtain ⟨htracks, hinv⟩ := h t rfl
    obtain ⟨hreturns, hkeeps⟩ := hI.step n (stateOf t) (.data c) hinv
    rcases table_onData_cases t c with ⟨e, hs, ht⟩ | ⟨s, hs, ht⟩
    · refine ⟨fun hlt => ?_, fun slot hslot => ?_⟩
      · obtain ⟨s, hs'⟩ := hreturns hlt
        cases hs.symm.trans hs'
      · simp only [Dispatcher.feed, ht] at hslot
        cases hslot
    · rw [Dispatcher.feed, ht, ok_bind]
      refine .pure fun t' ht' => ?_
      cases ht'
      exact ⟨htracks.onData hm hs, hkeeps s hs⟩

theorem Held.close (hI : Lasts limit m.step inputBytes I) {slot : Option σ} (h : Held I n slot)
    (flowKey : FlowKey) : Held I n (slot.map fun s => m.onFlowClose s flowKey) := by
  intro s' hs'
  obtain ⟨s, hs, rfl⟩ := Option.map_eq_some_iff.mp hs'
  exact (hI.step n s (.close flowKey .fin) (h s hs)).2 _ rfl

theorem HeldTable.close (hm : m.Keyed flows) (hI : Lasts limit m.step inputBytes I)
    {slot : Option (Table m.code)} (h : HeldTable m flows I n slot) (flowKey : FlowKey) :
    HeldTable m flows I n (slot.map fun t => t.onFlowClose flowKey) := by
  intro t' ht'
  obtain ⟨t, ht, rfl⟩ := Option.map_eq_some_iff.mp ht'
  obtain ⟨htracks, hinv⟩ := h t ht
  refine ⟨htracks.onFlowClose hm flowKey, ?_⟩
  rw [htracks.stateOf_onFlowClose hm]
  exact (hI.step n (stateOf t) (.close flowKey .fin) hinv).2 _ rfl

end Slots

section Dispatching

variable {libs : Libraries} {I : Invariants} {limit n : Nat}

structure Invariants.Hold (I : Invariants) (n : Nat) (d : StreamDispatcher (analyzers libs)) :
    Prop where
  http : HeldTable (Wiring.http libs.httparse) Http.HttpAnalyzer.flows I.http n d.http
  tls : HeldTable (Wiring.tls libs.tlsParser) Tls.TlsAnalyzer.flows I.tls n d.tls
  modbus : Held I.modbus n d.modbus
  dnp3 : Held I.dnp3 n d.dnp3
  enip : HeldTable Wiring.enip Enip.EnipAnalyzer.flows I.enip n d.enip
  iec104 : HeldTable Wiring.iec104 Iec104.Iec104Analyzer.flows I.iec104 n d.iec104

/-- The same six analyzers. -/
structure SameAnalyzers {a : Analyzers} (d d' : StreamDispatcher a) : Prop where
  http : d'.http = d.http
  tls : d'.tls = d.tls
  modbus : d'.modbus = d.modbus
  dnp3 : d'.dnp3 = d.dnp3
  enip : d'.enip = d.enip
  iec104 : d'.iec104 = d.iec104

theorem Invariants.Hold.of_same {d d' : StreamDispatcher (analyzers libs)} (h : I.Hold n d)
    (hsame : SameAnalyzers d d') : I.Hold n d' where
  http := hsame.http ▸ h.http
  tls := hsame.tls ▸ h.tls
  modbus := hsame.modbus ▸ h.modbus
  dnp3 := hsame.dnp3 ▸ h.dnp3
  enip := hsame.enip ▸ h.enip
  iec104 := hsame.iec104 ▸ h.iec104

theorem Invariants.Hold.mono (hI : I.Last libs limit) {d : StreamDispatcher (analyzers libs)}
    (h : I.Hold n d) {n' : Nat} (hle : n ≤ n') : I.Hold n' d where
  http := h.http.mono hI.http hle
  tls := h.tls.mono hI.tls hle
  modbus := h.modbus.mono hI.modbus hle
  dnp3 := h.dnp3.mono hI.dnp3 hle
  enip := h.enip.mono hI.enip hle
  iec104 := h.iec104.mono hI.iec104 hle

theorem Invariants.Hold.deliver (hI : I.Last libs limit) {d : StreamDispatcher (analyzers libs)}
    (h : I.Hold n d) (target : DispatchTarget) (c : Chunk) :
    ReturnsIf (n + c.data.length < limit) (deliver d target c) (I.Hold (n + c.data.length)) := by
  have hkept := h.mono hI (Nat.le_add_right n c.data.length)
  cases target with
  | http =>
    exact (h.http.feed (http_keyed _) hI.http c).bind fun slot hslot =>
      .pure { hkept with http := hslot }
  | tls =>
    exact (h.tls.feed (tls_keyed _) hI.tls c).bind fun slot hslot =>
      .pure { hkept with tls := hslot }
  | modbus =>
    exact (h.modbus.feed hI.modbus c).bind fun slot hslot => .pure { hkept with modbus := hslot }
  | dnp3 =>
    exact (h.dnp3.feed hI.dnp3 c).bind fun slot hslot => .pure { hkept with dnp3 := hslot }
  | enip =>
    exact (h.enip.feed enip_keyed hI.enip c).bind fun slot hslot =>
      .pure { hkept with enip := hslot }
  | iec104 =>
    exact (h.iec104.feed iec104_keyed hI.iec104 c).bind fun slot hslot =>
      .pure { hkept with iec104 := hslot }
  | none => exact .pure hkept

theorem sameAnalyzers_route (d : StreamDispatcher (analyzers libs)) (c : Chunk) :
    SameAnalyzers d (route d c).1 := by
  unfold route
  split
  · exact ⟨rfl, rfl, rfl, rfl, rfl, rfl⟩
  · dsimp only
    split
    · split <;> exact ⟨rfl, rfl, rfl, rfl, rfl, rfl⟩
    · exact ⟨rfl, rfl, rfl, rfl, rfl, rfl⟩

theorem sameAnalyzers_record (d : StreamDispatcher (analyzers libs)) (target : DispatchTarget)
    (c : Chunk) : SameAnalyzers d (record d target c) := by
  unfold record
  split <;> exact ⟨rfl, rfl, rfl, rfl, rfl, rfl⟩

theorem sameAnalyzers_countUnclassified (d : StreamDispatcher (analyzers libs))
    (flowKey : FlowKey) : SameAnalyzers d (countUnclassified d flowKey) := by
  unfold countUnclassified
  split
  · dsimp only
    split <;> exact ⟨rfl, rfl, rfl, rfl, rfl, rfl⟩
  · exact ⟨rfl, rfl, rfl, rfl, rfl, rfl⟩

theorem Invariants.Hold.onData (hI : I.Last libs limit) {d : StreamDispatcher (analyzers libs)}
    (h : I.Hold n d) (c : Chunk) :
    ReturnsIf (n + c.data.length < limit) (onData d c) (I.Hold (n + c.data.length)) := by
  unfold Dispatcher.onData
  split
  · exact .pure (h.mono hI (Nat.le_add_right n _))
  · have hroute := h.of_same (sameAnalyzers_route d c)
    exact (hroute.of_same (sameAnalyzers_record _ _ c)).deliver hI _ c

theorem Invariants.Hold.retireFlow (hI : I.Last libs limit)
    {d : StreamDispatcher (analyzers libs)} (h : I.Hold n d) (target : DispatchTarget)
    (flowKey : FlowKey) : I.Hold n (retireFlow d target flowKey) := by
  cases target with
  | http => exact { h with http := h.http.close (http_keyed _) hI.http flowKey }
  | tls => exact { h with tls := h.tls.close (tls_keyed _) hI.tls flowKey }
  | modbus => exact { h with modbus := h.modbus.close hI.modbus flowKey }
  | dnp3 => exact { h with dnp3 := h.dnp3.close hI.dnp3 flowKey }
  | enip => exact { h with enip := h.enip.close enip_keyed hI.enip flowKey }
  | iec104 => exact { h with iec104 := h.iec104.close iec104_keyed hI.iec104 flowKey }
  | none => exact h

theorem Invariants.Hold.onFlowClose (hI : I.Last libs limit)
    {d : StreamDispatcher (analyzers libs)} (h : I.Hold n d) (flowKey : FlowKey)
    (reason : CloseReason) : I.Hold n (onFlowClose d flowKey reason) := by
  have hforget : I.Hold n (forget d flowKey) := h.of_same ⟨rfl, rfl, rfl, rfl, rfl, rfl⟩
  rcases onFlowClose_cases d flowKey reason with ⟨-, heq⟩ | ⟨target, -, heq⟩
  · rw [heq]
    exact hforget.of_same (sameAnalyzers_countUnclassified _ flowKey)
  · rw [heq]
    exact hforget.retireFlow hI target flowKey

/-- What the six analyzers keep, the dispatcher keeps over the events of the engine. -/
theorem handle_lasts (hI : I.Last libs limit) :
    Lasts limit (CoverageGaps.handle (a := analyzers libs)) Volume.eventBytes I.Hold where
  mono := fun n n' d hle h => h.mono hI hle
  step := fun n d e h => by
    cases e with
    | onData key direction data offset timestamp =>
      exact h.onData hI ⟨key, direction, data, offset, timestamp⟩
    | onFlowClose key reason => exact .pure (h.onFlowClose hI key reason)
    | _ => exact .pure h

end Dispatching

end Wirerust.Wiring
