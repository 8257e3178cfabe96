import Wirerust.Analyzer.Dnp3Carry
import Wirerust.Analyzer.Dnp3Closing
import Wirerust.Analyzer.ModbusLedger
import Wirerust.Wiring

/-!
How long the analyzers last.

Where the counters of an analyzer do not saturate, they stop it once they run over. Each of the six
sections says what its analyzer has counted after so many bytes, over all its flows: never more than
it has been given. So all of them last for any `2^32` bytes (`endurance_last`), and with them the
dispatcher.
-/

namespace Wirerust.Endurance

open Lib Wirerust.Flow Wirerust.Analyzer Wirerust.Dispatcher Wirerust.Wiring

/-! ## HTTP -/

/-- The bytes that one direction of all flows keeps. -/
def httpKept (dir : Direction) (s : Http.HttpAnalyzer) : Nat :=
  s.flows.sumBy fun e => (e.2.side dir).buf.length

structure HttpWithin (n : Nat) (s : Http.HttpAnalyzer) : Prop where
  load : ∀ dir, Http.load dir s + httpKept dir s ≤ n
  skipped : s.poisonedBytesSkipped ≤ n

theorem httpKept_fresh (dir : Direction) :
    ((({} : Http.HttpFlowState).side dir).buf.length) = 0 := by
  cases dir <;> rfl

theorem HttpWithin.data {lib : Http.Httparse} {n : Nat} {s : Http.HttpAnalyzer}
    (h : HttpWithin n s) (c : Chunk) :
    ReturnsIf (n + c.data.length < 2 ^ 64) ((http lib).onData s c)
      (HttpWithin (n + c.data.length)) := by
  have hload := h.load c.direction
  have hskipped := h.skipped
  have hkept : ((Http.flowOf s c.flowKey).side c.direction).buf.length ≤ httpKept c.direction s :=
    SortedMap.sumBy_entry_le (fun flow : Http.HttpFlowState => (flow.side c.direction).buf.length)
      s.flows (httpKept_fresh c.direction) c.flowKey
  have hcall := Http.onData_delivers lib s c.flowKey c.direction c.data c.timestamp
  refine ⟨fun hlt => hcall.1 ⟨by omega, by omega⟩, fun s' hs' => ?_⟩
  have hcalled := hcall.2 s' hs'
  obtain ⟨flow, hflows⟩ := http_flows hs'
  have hput : ∀ dir, httpKept dir s' + ((Http.flowOf s c.flowKey).side dir).buf.length =
      httpKept dir s + ((Http.flowOf s' c.flowKey).side dir).buf.length := by
    intro dir
    rw [Http.flowOf_insert hflows, httpKept, hflows]
    exact SortedMap.sumBy_put (fun flow : Http.HttpFlowState => (flow.side dir).buf.length)
      s.flows (httpKept_fresh dir) c.flowKey flow
  refine ⟨fun dir => ?_, Nat.le_trans hcalled.skipped (Nat.add_le_add_right hskipped _)⟩
  have hput := hput dir
  by_cases hdir : dir = c.direction
  · subst hdir
    have hcount := hcalled.load
    omega
  · have hother := h.load dir
    rw [hcalled.other dir hdir] at hput
    rw [hcalled.loadOther dir hdir]
    omega

theorem http_lasts (lib : Http.Httparse) :
    Lasts (2 ^ 64) (http lib).step inputBytes HttpWithin where
  mono := fun n n' s hle h =>
    ⟨fun dir => Nat.le_trans (h.load dir) hle, Nat.le_trans h.skipped hle⟩
  step := fun n s i h => by
    cases i with
    | data c => exact h.data c
    | close flowKey reason =>
      refine .pure ⟨fun dir => Nat.le_trans (Nat.add_le_add_left ?_ _) (h.load dir), h.skipped⟩
      exact SortedMap.sumBy_erase_le _ s.flows flowKey

theorem httpWithin_new : HttpWithin 0 .new :=
  ⟨fun dir => by cases dir <;> exact Nat.le_refl 0, Nat.le_refl 0⟩

/-! ## TLS -/

/-- The input as the TLS analyzer has it. -/
def tlsEvent : Dispatcher.Input → Tls.Event
  | .data c => .data c.flowKey c.direction c.data c.timestamp
  | .close flowKey _ => .close flowKey

theorem tls_lasts (lib : Tls.TlsParser) :
    Lasts (2 ^ 64) (tls lib).step inputBytes Tls.Sound where
  mono := fun n n' s hle h => ⟨h.bounded, Nat.le_trans h.load hle⟩
  step := fun n s i h => by
    have hevent := Tls.onEvent_sound lib h (tlsEvent i)
    cases i with
    | data c => exact hevent
    | close flowKey reason => exact hevent

/-! ## Modbus -/

/-- The bytes in both carries. -/
def modbusKept (flow : Modbus.ModbusFlowState) : Nat :=
  flow.carryC2s.length + flow.carryS2c.length

theorem modbusKept_setCarry (flow : Modbus.ModbusFlowState) (dir : Direction)
    (bytes : List UInt8) : modbusKept (flow.setCarry dir bytes) + (flow.carry dir).length =
      modbusKept flow + bytes.length := by
  cases dir with
  | clientToServer =>
    simp only [modbusKept, Modbus.ModbusFlowState.setCarry, Modbus.ModbusFlowState.carry]
    omega
  | serverToClient =>
    simp only [modbusKept, Modbus.ModbusFlowState.setCarry, Modbus.ModbusFlowState.carry]
    omega

def modbusBacklog : Backlog Modbus.ModbusAnalyzer FlowKey Modbus.ModbusFlowState where
  table := Modbus.ModbusAnalyzer.flows
  fresh := {}
  kept := modbusKept
  shared := fun m s => CountsLe m s.fnCodeCounts
  own := Modbus.WindowsLe

theorem modbusBacklog_lawful : modbusBacklog.Lawful where
  fresh_kept := rfl
  fresh_own := fun _ _ => Nat.zero_le _
  shared_mono := fun _ _ _ hle h key => Nat.le_trans (h key) hle
  own_mono := fun _ _ _ hle h key => Nat.le_trans (h key) hle

/-- What so many ADUs have counted. -/
structure AdusCounted (count : Nat) (w w' : Modbus.ModbusAnalyzer × Modbus.ModbusFlowState) :
    Prop where
  flows : w'.1.flows = w.1.flows
  carryC2s : w'.2.carryC2s = w.2.carryC2s
  carryS2c : w'.2.carryS2c = w.2.carryS2c
  countsLe : ∀ n, CountsLe n w.1.fnCodeCounts → CountsLe (n + count) w'.1.fnCodeCounts
  windowsLe : ∀ n, Modbus.WindowsLe n w.2 → Modbus.WindowsLe (n + count) w'.2

theorem processAdu_counted {m : Nat} {flowKey : FlowKey} {dir : Direction} {timestamp : UInt32}
    {w : Modbus.ModbusAnalyzer × Modbus.ModbusFlowState} (hcounts : CountsLe m w.1.fnCodeCounts)
    (hwindows : Modbus.WindowsLe m w.2) (adu : List UInt8) :
    ReturnsIf (m + 1 < 2 ^ 32) (Modbus.processAdu flowKey dir timestamp w adu)
      (AdusCounted 1 w) := by
  unfold Modbus.processAdu
  split
  · exact .pure ⟨rfl, rfl, rfl, fun n h key => Nat.le_succ_of_le (h key),
      fun n h key => Nat.le_succ_of_le (h key)⟩
  · rename_i header hheader
    constructor
    · intro hlt
      obtain ⟨r, hr⟩ := Modbus.processPdu_returns hcounts hwindows hlt
        ⟨flowKey, dir, header, header.functionCode, adu, timestamp⟩
      exact ⟨_, bind_eq_ok.mpr ⟨r, hr, rfl⟩⟩
    · intro w' hw'
      obtain ⟨⟨s, flow, found⟩, hpdu, hout⟩ := bind_eq_ok.mp hw'
      cases hout
      have hstep := Modbus.processPdu_step hpdu
      exact ⟨hstep.flows, hstep.carryC2s, hstep.carryS2c, hstep.countsLe, hstep.windowsLe⟩

theorem run_adus_counted {m : Nat} {flowKey : FlowKey} {dir : Direction} {timestamp : UInt32}
    (adus : List (List UInt8)) {w : Modbus.ModbusAnalyzer × Modbus.ModbusFlowState}
    (hcounts : CountsLe m w.1.fnCodeCounts) (hwindows : Modbus.WindowsLe m w.2) :
    ReturnsIf (m + adus.length < 2 ^ 32) (run (Modbus.processAdu flowKey dir timestamp) w adus)
      (AdusCounted adus.length w) := by
  induction adus generalizing m w with
  | nil => exact .pure ⟨rfl, rfl, rfl, fun _ h => h, fun _ h => h⟩
  | cons adu adus ih =>
    rw [run_cons, List.length_cons]
    refine ((processAdu_counted hcounts hwindows adu).imp (by omega)).bind fun w₁ h₁ => ?_
    have hrest := ih (h₁.countsLe m hcounts) (h₁.windowsLe m hwindows)
    refine (hrest.imp (by omega)).mono fun w₂ h₂ => ?_
    refine ⟨h₂.flows.trans h₁.flows, h₂.carryC2s.trans h₁.carryC2s,
      h₂.carryS2c.trans h₁.carryS2c, fun n h => ?_, fun n h => ?_⟩
    · rw [Nat.add_comm adus.length 1, ← Nat.add_assoc]
      exact h₂.countsLe _ (h₁.countsLe n h)
    · rw [Nat.add_comm adus.length 1, ← Nat.add_assoc]
      exact h₂.windowsLe _ (h₁.windowsLe n h)

theorem carry_le_modbusKept (flow : Modbus.ModbusFlowState) (dir : Direction) :
    (flow.carry dir).length ≤ modbusKept flow := by
  cases dir with
  | clientToServer => exact Nat.le_add_right _ _
  | serverToClient => exact Nat.le_add_left _ _

/-- The end of a call, after its ADUs. -/
theorem finish_kept (dir : Direction) (cut : Split UInt8)
    (w : Modbus.ModbusAnalyzer × Modbus.ModbusFlowState) :
    modbusKept (Modbus.finish dir cut w).2 + (w.2.carry dir).length ≤
      modbusKept w.2 + cut.rest.length := by
  unfold Modbus.finish
  split
  · exact (Nat.le_of_eq (Nat.zero_add _)).trans
      ((carry_le_modbusKept w.2 dir).trans (Nat.le_add_right _ _))
  · exact Nat.le_of_eq (modbusKept_setCarry w.2 dir cut.rest)

theorem finish_same (dir : Direction) (cut : Split UInt8)
    (w : Modbus.ModbusAnalyzer × Modbus.ModbusFlowState) :
    (Modbus.finish dir cut w).1.flows = w.1.flows ∧
      (Modbus.finish dir cut w).1.fnCodeCounts = w.1.fnCodeCounts ∧
      (Modbus.finish dir cut w).2.exceptionWindowCounts = w.2.exceptionWindowCounts := by
  unfold Modbus.finish
  split
  · exact ⟨rfl, rfl, rfl⟩
  · cases dir <;> exact ⟨rfl, rfl, rfl⟩

theorem modbus_call {n : Nat} {s : Modbus.ModbusAnalyzer} (h : modbusBacklog.Within n s)
    (c : Chunk) : ReturnsIf (n + c.data.length < 2 ^ 32) (modbus.onData s c)
      (modbusBacklog.Within (n + c.data.length)) := by
  refine h.call modbusBacklog_lawful c.flowKey fun m hcounts hwindows => ?_
  generalize hflow : modbusBacklog.entry s c.flowKey = flow at hwindows ⊢
  have hget : (s.flows.get? c.flowKey).getD {} = flow := hflow
  change CountsLe m s.fnCodeCounts at hcounts
  change Modbus.WindowsLe m flow at hwindows
  change ReturnsIf (m + modbusKept flow + _ < _)
    (Modbus.onData s c.flowKey c.direction c.data c.timestamp) _
  unfold Modbus.onData
  simp only [hget]
  split
  · refine .pure ⟨flow, 0, SortedMap.insert_erase _ _ _, hcounts, hwindows, ?_⟩
    rw [hflow, Nat.zero_add]
    exact Nat.le_add_right _ _
  · rw [Modbus.walk_eq _ _ _ _ (Nat.le_refl _) (Modbus.carry_setCarry _ []), bind_bind]
    generalize hcut : Modbus.aduFramer.split (flow.carry c.direction ++ c.data) = cut
    have hsplit := Modbus.aduFramer.length_split (flow.carry c.direction ++ c.data)
    have hset := modbusKept_setCarry flow c.direction []
    rw [hcut, List.length_append] at hsplit
    rw [List.length_nil] at hset
    have hwindows' : Modbus.WindowsLe m (flow.setCarry c.direction []) := by
      cases c.direction <;> exact hwindows
    refine ((run_adus_counted (m := m) cut.frames ?_ hwindows').imp fun hlt => ?_).bind
      fun w hw => .pure ?_
    · exact hcounts
    · omega
    · obtain ⟨hflows, hcodes, hexceptions⟩ := finish_same c.direction cut w
      have hkept := finish_kept c.direction cut w
      have hsame : modbusKept w.2 = modbusKept (flow.setCarry c.direction []) := by
        rw [modbusKept, hw.carryC2s, hw.carryS2c]
        rfl
      refine ⟨(Modbus.finish c.direction cut w).2, cut.frames.length, ?_, ?_, ?_, ?_⟩
      · change (Modbus.finish c.direction cut w).1.flows.insert c.flowKey _ = _
        rw [hflows, hw.flows]
        exact SortedMap.insert_erase _ _ _
      · change CountsLe _ (Modbus.finish c.direction cut w).1.fnCodeCounts
        rw [hcodes]
        exact hw.countsLe m hcounts
      · change CountsLe _ (Modbus.finish c.direction cut w).2.exceptionWindowCounts
        rw [hexceptions]
        exact hw.windowsLe m hwindows'
      · rw [hflow]
        change cut.frames.length + modbusKept (Modbus.finish c.direction cut w).2 ≤
          modbusKept flow + c.data.length
        omega

theorem modbus_lasts : Lasts (2 ^ 32) modbus.step inputBytes modbusBacklog.Within where
  mono := fun n n' s hle h => h.mono hle
  step := fun n s i h => by
    cases i with
    | data c => exact modbus_call h c
    | close flowKey reason =>
      exact .pure (h.close modbusBacklog_lawful flowKey (fun _ hcounts => hcounts) rfl)

theorem modbusWithin_new (writeBurst writeSustained : UInt32) :
    modbusBacklog.Within 0 (.new writeBurst writeSustained) :=
  ⟨0, fun _ => Nat.le_refl 0, fun _ _ => Nat.le_refl 0, Nat.le_refl 0⟩

/-! ## DNP3 -/

def dnp3Backlog : Backlog Dnp3.Dnp3Analyzer FlowKey Dnp3.Dnp3FlowState where
  table := Dnp3.Dnp3Analyzer.flows
  fresh := {}
  kept := Dnp3.carried
  shared := fun m s => CountsLe m s.fnCodeCounts
  own := fun m flow => Dnp3.Shape flow ∧ CountsLe m flow.fcCounts ∧ Dnp3.events flow ≤ m

theorem dnp3Backlog_lawful : dnp3Backlog.Lawful where
  fresh_kept := rfl
  fresh_own := fun _ => ⟨Dnp3.shape_new 0 Dnp3.outstationKey, fun _ => Nat.zero_le _, Nat.zero_le _⟩
  shared_mono := fun _ _ _ hle h key => Nat.le_trans (h key) hle
  own_mono := fun _ _ _ hle h =>
    ⟨h.1, fun key => Nat.le_trans (h.2.1 key) hle, Nat.le_trans h.2.2 hle⟩

section Carried

variable {ord : Dnp3.PendingOrder} {c : Dnp3.Delivery} {s s' : Dnp3.Dnp3Analyzer}
  {flow flow' : Dnp3.Dnp3FlowState}

theorem dropMalformed_carried (c : Dnp3.Delivery) (rest : List UInt8) (s : Dnp3.Dnp3Analyzer)
    (flow : Dnp3.Dnp3FlowState) :
    Dnp3.carried (Dnp3.dropMalformed c rest s flow).2 + (flow.carry c.direction).length =
      Dnp3.carried flow + rest.length := by
  have hdrops := Dnp3.dropMalformed_drops c rest s flow
  have hself := hdrops.carry
  have hother := hdrops.other
  generalize (Dnp3.dropMalformed c rest s flow).2 = flow' at hself hother ⊢
  cases hdir : c.direction with
  | clientToServer =>
    rw [hdir] at hself hother
    have hsame : flow'.carryS2c = flow.carryS2c := hother .serverToClient (by simp)
    change flow'.carryC2s = rest at hself
    simp only [Dnp3.carried, Dnp3.Dnp3FlowState.carry, hself, hsame]
    omega
  | serverToClient =>
    rw [hdir] at hself hother
    have hsame : flow'.carryC2s = flow.carryC2s := hother .clientToServer (by simp)
    change flow'.carryS2c = rest at hself
    simp only [Dnp3.carried, Dnp3.Dnp3FlowState.carry, hself, hsame]
    omega

theorem turned_carried {again : Bool} {w : Dnp3.Dnp3Analyzer × Dnp3.Dnp3FlowState}
    (h : Dnp3.Turned ord c s flow again w) : Dnp3.carried w.2 ≤ Dnp3.carried flow := by
  cases h with
  | stop hok => exact Nat.le_refl _
  | settle hlen hlong =>
    have hdrop := dropMalformed_carried c (Dnp3.resync 1 (flow.carry c.direction)) s flow
    have hresync := (Dnp3.resync_spec 1 (flow.carry c.direction)).2
    omega
  | drop rest hlen hrest =>
    have hdrop := dropMalformed_carried c rest s flow
    omega
  | frame n header s' flow' hsync hn hle hparse hframe =>
    have hstep := Dnp3.processFrame_step hframe
    have hset := Dnp3.carried_setCarry flow' c.direction ((flow.carry c.direction).drop n)
    have hcarried := hstep.aside.carried
    rw [hstep.aside.carry c.direction, List.length_drop] at hset
    simp only
    omega

theorem accumulate_carried {data : List UInt8} {w : Dnp3.Dnp3Analyzer × Dnp3.Dnp3FlowState}
    (h : Dnp3.accumulate c data s flow = .ok w) :
    Dnp3.carried w.2 ≤ Dnp3.carried flow + data.length := by
  rcases Dnp3.accumulate_cases h with ⟨-, rfl⟩ | ⟨hover, hle, rfl⟩
  · have hset :=
      Dnp3.carried_setCarry flow c.direction (flow.carry c.direction ++ data)
    rw [List.length_append] at hset
    simp only
    omega
  · generalize hcapped : flow.carry c.direction ++
      data.take (Dnp3.maxDnp3FrameLen - (flow.carry c.direction).length) = capped
    have hdrop := dropMalformed_carried c (Dnp3.resync 0 capped) s flow
    have hresync := (Dnp3.resync_spec 0 capped).2
    have hlen : capped.length ≤ (flow.carry c.direction).length + data.length := by
      rw [← hcapped, List.length_append, List.length_take]
      omega
    omega

/-- A call keeps no more than it is given. -/
theorem onFlowData_carried {data : List UInt8} {w : Dnp3.Dnp3Analyzer × Dnp3.Dnp3FlowState}
    (h : Dnp3.onFlowData ord c data s flow = .ok w) :
    Dnp3.carried w.2 ≤ Dnp3.carried flow + data.length := by
  rcases Dnp3.onFlowData_cases h with ⟨-, rfl⟩ | ⟨-, -, rfl⟩ |
    ⟨-, -, s₁, flow₁, s₂, flow₂, hscan, hacc, hloop⟩
  · exact Nat.le_add_right _ _
  · exact Nat.le_add_right _ _
  · have hexpired := Dnp3.carried_eq (Dnp3.expire_spec flow c.ts).1
    have hscanned := (Dnp3.scanBlockTimeouts_detects hscan).aside.carried
    have hkept := accumulate_carried hacc
    refine hloop.keeps (I := fun _ f => Dnp3.carried f ≤ Dnp3.carried flow + data.length)
      (fun s f again w hI hturned => Nat.le_trans (turned_carried hturned) hI) ?_
    simp only at hkept
    omega

end Carried

theorem dnp3_call {ord : Dnp3.PendingOrder} {n : Nat} {s : Dnp3.Dnp3Analyzer}
    (h : dnp3Backlog.Within n s) (c : Chunk) :
    ReturnsIf (n + c.data.length < 2 ^ 64) ((dnp3 ord).onData s c)
      (dnp3Backlog.Within (n + c.data.length)) := by
  refine h.call dnp3Backlog_lawful c.flowKey fun m hshared hown => ?_
  generalize hflow : dnp3Backlog.entry s c.flowKey = flow at hown ⊢
  have hget : (s.flows.get? c.flowKey).getD {} = flow := hflow
  obtain ⟨hshape, hcodes, hevents⟩ := hown
  change ReturnsIf (m + Dnp3.carried flow + _ < _)
    (Dnp3.onData ord s c.flowKey c.data c.timestamp c.direction) _
  have hfits : Dnp3.Fits (m + Dnp3.carried flow) s flow :=
    ⟨m, hcodes, hshared, hevents, Nat.le_refl _⟩
  have hcall := Dnp3.onFlowData_fits hfits ord ⟨c.flowKey, c.direction, c.timestamp⟩ c.data
    (Nat.le_of_lt (hshape.carries _).length)
  unfold Dnp3.onData
  simp only [hget]
  refine ⟨fun hlt => ?_, fun s' hs' => ?_⟩
  · obtain ⟨w, hw⟩ := hcall.1 hlt
    exact ⟨_, bind_eq_ok.mpr ⟨w, hw, rfl⟩⟩
  · obtain ⟨⟨s₁, flow'⟩, hdata, hout⟩ := bind_eq_ok.mp hs'
    cases hout
    obtain ⟨n', hcodes', hshared', hevents', hle⟩ := hcall.2 _ hdata
    have hcarried := onFlowData_carried hdata
    simp only at hle hcarried hcodes' hshared' hevents'
    have hmax : n' ≤ m + (n' - m) := by omega
    have hflows : s₁.flows = s.flows := Dnp3.onFlowData_flows hdata
    refine ⟨flow', n' - m, ?_, fun key => Nat.le_trans (hshared' key) hmax,
      ⟨(Dnp3.onFlowData_callOk hshape hdata).1, fun key => Nat.le_trans (hcodes' key) hmax,
        Nat.le_trans hevents' hmax⟩, ?_⟩
    · change s₁.flows.insert c.flowKey flow' = s.flows.insert c.flowKey flow'
      rw [hflows]
    · rw [hflow]
      change n' - m + Dnp3.carried flow' ≤ Dnp3.carried flow + c.data.length
      omega

theorem dnp3_lasts (ord : Dnp3.PendingOrder) :
    Lasts (2 ^ 64) (dnp3 ord).step inputBytes dnp3Backlog.Within where
  mono := fun n n' s hle h => h.mono hle
  step := fun n s i h => by
    cases i with
    | data c => exact dnp3_call h c
    | close flowKey reason =>
      refine .pure (h.close dnp3Backlog_lawful flowKey (fun m hcounts => ?_)
        (Dnp3.flows_onFlowClose s flowKey))
      cases hget : s.flows.get? flowKey with
      | none =>
        change CountsLe m (Dnp3.onFlowClose s flowKey).fnCodeCounts
        rw [Dnp3.onFlowClose_of_none hget]
        exact hcounts
      | some flow =>
        change CountsLe m (Dnp3.onFlowClose s flowKey).fnCodeCounts
        rw [Dnp3.onFlowClose_of_some hget]
        exact hcounts

theorem dnp3Within_new (threshold : UInt32) : dnp3Backlog.Within 0 (.new threshold) := by
  refine ⟨0, fun _ => Nat.le_refl 0, fun flowKey => ?_, Nat.le_refl 0⟩
  have hnew : dnp3Backlog.entry (.new threshold) flowKey = dnp3Backlog.fresh := rfl
  rw [hnew]
  exact dnp3Backlog_lawful.fresh_own 0

/-! ## EtherNet/IP and IEC 104 -/

theorem enip_close {n : Nat} {s : Enip.EnipAnalyzer} (h : Enip.Walks n s) (flowKey : FlowKey) :
    Enip.Walks n (Enip.onFlowClose s flowKey) := by
  cases hget : s.flows.get? flowKey with
  | none =>
    rw [Enip.onFlowClose_of_none hget]
    exact h
  | some flow =>
    have hflows := Enip.flows_onFlowClose s flowKey
    have hfindings : (Enip.onFlowClose s flowKey).findings = s.findings := by
      unfold Enip.onFlowClose
      rw [hget]
    have hentry : ∀ key, Enip.flowOf (Enip.onFlowClose s flowKey) key =
        if key = flowKey then {} else Enip.flowOf s key := by
      intro key
      rw [Enip.flowOf, hflows]
      by_cases hkey : key = flowKey
      · rw [if_pos hkey, hkey, SortedMap.get?_erase_self, Option.getD_none]
      · rw [if_neg hkey, SortedMap.get?_erase_of_ne _ hkey, Enip.flowOf]
    refine ⟨hfindings ▸ h.findings, fun key => ?_, fun key => ?_⟩
    · rw [hfindings, hentry]
      split
      · exact Enip.flowOk_new s.findings
      · exact h.flows key
    · rw [hentry]
      split
      · exact ⟨Nat.zero_le _, Nat.zero_le _, 0, 0, rfl, rfl, rfl⟩
      · exact h.books key

theorem enip_lasts : Lasts (2 ^ 64) enip.step inputBytes Enip.Walks where
  mono := fun n n' s hle h => ⟨h.findings, h.flows, fun key =>
    ⟨Nat.le_trans (h.books key).commands hle, Nat.le_trans (h.books key).errors hle,
      (h.books key).balanced⟩⟩
  step := fun n s i h => by
    cases i with
    | data c => exact Enip.onCall_walks h ⟨⟨c.flowKey, c.timestamp, c.direction⟩, c.data⟩
    | close flowKey reason => exact .pure (enip_close h flowKey)

/-- All its counters saturate. -/
theorem iec104_lasts (limit : Nat) : Lasts limit iec104.step inputBytes fun _ _ => True where
  mono := fun _ _ _ _ h => h
  step := fun n s i _ => by
    cases i with
    | data c =>
      refine ⟨fun _ => ?_, fun _ _ => trivial⟩
      exact ⟨_, bind_eq_ok.mpr ⟨_, Iec104.walk_eq _ _ 0 _ _ (Nat.le_refl _), rfl⟩⟩
    | close flowKey reason => exact .pure trivial

/-! ## All six -/

/-- The bytes that all of them can take. -/
def capacity (hasModbus : Bool) : Nat := if hasModbus then 2 ^ 32 else 2 ^ 64

def endurance (hasModbus : Bool) : Invariants where
  http := HttpWithin
  tls := Tls.Sound
  modbus := fun n s => hasModbus = true ∧ modbusBacklog.Within n s
  dnp3 := dnp3Backlog.Within
  enip := Enip.Walks
  iec104 := fun _ _ => True

theorem capacity_le (hasModbus : Bool) : capacity hasModbus ≤ 2 ^ 64 := by
  cases hasModbus <;> decide

theorem endurance_last (libs : Libraries) (hasModbus : Bool) :
    (endurance hasModbus).Last libs (capacity hasModbus) where
  http := (http_lasts libs.httparse).of_le (capacity_le hasModbus)
  tls := (tls_lasts libs.tlsParser).of_le (capacity_le hasModbus)
  modbus :=
    { mono := fun n n' s hle h => ⟨h.1, modbus_lasts.mono n n' s hle h.2⟩
      step := fun n s i h => by
        obtain ⟨rfl, hwithin⟩ := h
        exact (modbus_lasts.step n s i hwithin).mono fun s' hs' => ⟨rfl, hs'⟩ }
  dnp3 := (dnp3_lasts libs.pendingOrder).of_le (capacity_le hasModbus)
  enip := enip_lasts.of_le (capacity_le hasModbus)
  iec104 := iec104_lasts _

end Wirerust.Endurance
