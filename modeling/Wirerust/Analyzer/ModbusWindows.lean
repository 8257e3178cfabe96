import Wirerust.Analyzer.ModbusPdu
import Wirerust.Analyzer.Windows

/-!
The windows of the Modbus detectors (`process_pdu` of `analyzer/modbus.rs`).

Each of the three detectors keeps its own anchor, count and latch in the flow; what they hold after
some PDUs is a window in the sense of `Lib.Window`, and the findings are raised when that window
fires (`observe_follows`). The counters of writes saturate, so this needs a threshold that the
counter can go beyond (`run_windows`).
-/

namespace Wirerust.Modbus

open Lib Wirerust.Flow Wirerust.Analyzer

/-! ## What is seen -/

/-- A PDU, the flow before and after it, and the findings it raised. -/
structure Seen where
  pdu : Pdu
  before : ModbusFlowState
  after : ModbusFlowState
  raised : List Finding

/-- `process_pdu` on one PDU after the other. -/
def observe (s : ModbusAnalyzer) (flow : ModbusFlowState) : List Pdu → Checked (List Seen)
  | [] => .ok []
  | p :: pdus => do
    let (s', flow', raised) ← processPdu s flow p
    let log ← observe s' flow' pdus
    .ok (⟨p, flow, flow', raised⟩ :: log)

def evidenceStarts (first : String) (f : Finding) : Bool :=
  match f.evidence with
  | line :: _ => first.toList.isPrefixOf line.toList
  | [] => false

namespace Pdu

def isWrite (p : Pdu) : Bool := p.direction = .clientToServer && classifyFc p.fc = .write

def isCoordinated (p : Pdu) : Bool := p.direction = .clientToServer && isRegisterWrite p.fc

def isException (p : Pdu) : Bool := p.direction = .serverToClient && classifyFc p.fc = .exception

abbrev exceptionCode (p : Pdu) : UInt8 := p.data[8]?.getD 0xff

end Pdu

/-- More than `threshold` writes within a second. -/
def writeWatch (threshold : UInt32) : Watch Seen where
  width := writeBurstWindowSecs.toNat
  needed := threshold.toNat + 1
  event := fun e => e.pdu.isWrite
  time := fun e => e.pdu.timestamp.toNat
  fires := fun e => e.raised.any (evidenceStarts "Burst threshold exceeded")
  resets := fun e =>
    saturatingSub e.pdu.timestamp e.before.windowStartTs > writeBurstWindowSecs
  anchor := fun e => e.after.windowStartTs.toNat

/-- Two register writes within five seconds. -/
def coordinatedWatch : Watch Seen where
  width := t0831WindowSecs.toNat
  needed := 2
  event := fun e => e.pdu.isCoordinated
  time := fun e => e.pdu.timestamp.toNat
  fires := fun e => e.raised.any fun f => f.mitreTechniques.contains "T0831"
  resets := fun e => saturatingSub e.pdu.timestamp e.before.t0831WindowStartTs > t0831WindowSecs
  anchor := fun e => e.after.t0831WindowStartTs.toNat

/-- More than five exceptions with one code within ten seconds. -/
def exceptionWatch (code : UInt8) : Watch Seen where
  width := exceptionWindowSecs.toNat
  needed := exceptionRateThreshold + 1
  event := fun e => e.pdu.isException && e.pdu.exceptionCode = code
  time := fun e => e.pdu.timestamp.toNat
  fires := fun e => e.pdu.exceptionCode = code && e.raised.any (evidenceStarts "exception_fc=")
  resets := fun e => saturatingSub e.pdu.timestamp
    ((e.before.exceptionWindowStartTs.get? code).getD e.pdu.timestamp) > exceptionWindowSecs
  anchor := fun e => ((e.after.exceptionWindowStartTs.get? code).getD 0).toNat

/-! ## The texts of the findings -/

theorem evidenceStarts_head {first line : String} {f : Finding} {c : Char}
    (hf : f.evidence = [line]) (hfirst : first.toList.head? = some c)
    (h : evidenceStarts first f = true) : line.toList.head? = some c := by
  rw [evidenceStarts, hf] at h
  obtain ⟨rest, hrest⟩ := List.isPrefixOf_iff_prefix.mp h
  rw [← hrest, List.head?_append, hfirst]
  rfl

/-- A finding whose evidence begins with another letter. -/
theorem evidenceStarts_of_ne {first line : String} {f : Finding} {c d : Char}
    (hf : f.evidence = [line]) (hfirst : first.toList.head? = some c)
    (hline : line.toList.head? = some d) (hne : c ≠ d) : evidenceStarts first f = false := by
  rw [← Bool.not_eq_true]
  intro h
  have hhead := evidenceStarts_head hf hfirst h
  rw [hline, Option.some.injEq] at hhead
  exact hne hhead.symm

theorem head_append {line rest : String} {c : Char} (h : line.toList.head? = some c) :
    (line ++ rest).toList.head? = some c := by
  rw [String.toList_append, List.head?_append, h]
  rfl

theorem evidenceStarts_of_front {first line : String} {f : Finding} (hf : f.evidence = [line])
    (h : first.toList <+: line.toList) : evidenceStarts first f = true := by
  rw [evidenceStarts, hf]
  exact List.isPrefixOf_iff_prefix.mpr h

/-- The only line of evidence begins with the letter. -/
def Begins (c : Char) (f : Finding) : Prop :=
  ∃ line, f.evidence = [line] ∧ line.toList.head? = some c

theorem Begins.evidenceStarts {first : String} {f : Finding} {c d : Char} (h : Begins d f)
    (hfirst : first.toList.head? = some c) (hne : c ≠ d) : evidenceStarts first f = false := by
  obtain ⟨line, hf, hline⟩ := h
  exact evidenceStarts_of_ne hf hfirst hline hne

/-- What neither test is about. -/
structure Plain (f : Finding) : Prop where
  burst : evidenceStarts "Burst threshold exceeded" f = false
  exception : evidenceStarts "exception_fc=" f = false

theorem Begins.plain {f : Finding} {c : Char} (h : Begins c f) (hB : 'B' ≠ c) (he : 'e' ≠ c) :
    Plain f :=
  ⟨h.evidenceStarts (by decide) hB, h.evidenceStarts (by decide) he⟩

theorem reconFindings_begins (p : Pdu) :
    ∀ f ∈ reconFindings p, Begins 'F' f ∧ "T0831" ∉ f.mitreTechniques := by
  intro f hf
  unfold reconFindings at hf
  split at hf
  · rw [List.mem_singleton.mp hf]
    exact ⟨⟨_, rfl, head_append (by decide)⟩, by simp [reconFinding]⟩
  · split at hf
    · split at hf
      · rw [List.mem_singleton.mp hf]
        exact ⟨⟨_, rfl, head_append (by decide)⟩, by simp [reconFinding]⟩
      · cases hf
    · split at hf
      · rw [List.mem_singleton.mp hf]
        refine ⟨⟨_, rfl, head_append ?_⟩, by simp [reconFinding]⟩
        exact head_append (head_append (by decide))
      · cases hf

theorem reconFindings_plain (p : Pdu) :
    ∀ f ∈ reconFindings p, Plain f ∧ "T0831" ∉ f.mitreTechniques := by
  intro f hf
  obtain ⟨hbegins, hnone⟩ := reconFindings_begins p f hf
  exact ⟨hbegins.plain (by decide) (by decide), hnone⟩

theorem writeFinding_begins (p : Pdu) (coordinated : Bool) :
    Begins 'F' (writeFinding p coordinated) := by
  refine ⟨_, rfl, ?_⟩
  repeat refine head_append ?_
  decide

theorem writeFinding_plain (p : Pdu) (coordinated : Bool) : Plain (writeFinding p coordinated) :=
  (writeFinding_begins p coordinated).plain (by decide) (by decide)

theorem writeFinding_coordinated (p : Pdu) (coordinated : Bool) :
    (writeFinding p coordinated).mitreTechniques.contains "T0831" = coordinated := by
  have htechniques : ∀ fc : UInt8, ∀ coordinated : Bool,
      (writeTechniques fc coordinated).contains "T0831" = coordinated := by
    intro fc coordinated
    unfold writeTechniques
    cases coordinated <;> split <;> [skip; split; skip; split] <;> decide
  exact htechniques p.fc coordinated

/-! ## The fields of the windows -/

/-- The window of the write burst. -/
abbrev WriteWindow (flow : ModbusFlowState) (w : Window) : Prop :=
  Held 32 flow.windowStartTs flow.windowWriteCount flow.windowBurstEmitted w

/-- The window of the coordinated writes. -/
abbrev CoordinatedWindow (flow : ModbusFlowState) (w : Window) : Prop :=
  Held 32 flow.t0831WindowStartTs flow.t0831WindowWriteCount flow.t0831BurstEmitted w

/-- The window of an exception code; there is none before the first exception. -/
def ExceptionWindow (code : UInt8) (flow : ModbusFlowState) : Option Window → Prop
  | none => flow.exceptionWindowStartTs.get? code = none ∧
    flow.exceptionWindowCounts.get? code = none ∧
    (flow.exceptionBurstEmitted.get? code).getD false = false
  | some w => (∃ start, flow.exceptionWindowStartTs.get? code = some start ∧
      start.toNat = w.anchor) ∧ flow.exceptionWindowCounts.get? code = some w.count ∧
    (flow.exceptionBurstEmitted.get? code).getD false = w.fired

/-- The fields of one kind of window are left alone. -/
structure SameWrite (flow flow' : ModbusFlowState) : Prop where
  start : flow'.windowStartTs = flow.windowStartTs
  count : flow'.windowWriteCount = flow.windowWriteCount
  emitted : flow'.windowBurstEmitted = flow.windowBurstEmitted

structure SameCoordinated (flow flow' : ModbusFlowState) : Prop where
  start : flow'.t0831WindowStartTs = flow.t0831WindowStartTs
  count : flow'.t0831WindowWriteCount = flow.t0831WindowWriteCount
  emitted : flow'.t0831BurstEmitted = flow.t0831BurstEmitted

structure SameException (flow flow' : ModbusFlowState) : Prop where
  starts : flow'.exceptionWindowStartTs = flow.exceptionWindowStartTs
  counts : flow'.exceptionWindowCounts = flow.exceptionWindowCounts
  emitted : flow'.exceptionBurstEmitted = flow.exceptionBurstEmitted

theorem SameWrite.trans {a b c : ModbusFlowState} (h : SameWrite a b) (h' : SameWrite b c) :
    SameWrite a c :=
  ⟨h'.start.trans h.start, h'.count.trans h.count, h'.emitted.trans h.emitted⟩

theorem SameCoordinated.trans {a b c : ModbusFlowState} (h : SameCoordinated a b)
    (h' : SameCoordinated b c) : SameCoordinated a c :=
  ⟨h'.start.trans h.start, h'.count.trans h.count, h'.emitted.trans h.emitted⟩

theorem SameException.trans {a b c : ModbusFlowState} (h : SameException a b)
    (h' : SameException b c) : SameException a c :=
  ⟨h'.starts.trans h.starts, h'.counts.trans h.counts, h'.emitted.trans h.emitted⟩

theorem SameWrite.window {flow flow' : ModbusFlowState} (h : SameWrite flow flow') {w : Window}
    (hw : WriteWindow flow w) : WriteWindow flow' w :=
  ⟨h.start ▸ hw.anchor, h.count ▸ hw.count, h.emitted ▸ hw.fired⟩

theorem SameCoordinated.window {flow flow' : ModbusFlowState} (h : SameCoordinated flow flow')
    {w : Window} (hw : CoordinatedWindow flow w) : CoordinatedWindow flow' w :=
  ⟨h.start ▸ hw.anchor, h.count ▸ hw.count, h.emitted ▸ hw.fired⟩

theorem SameException.window {flow flow' : ModbusFlowState} (h : SameException flow flow')
    {code : UInt8} {w : Option Window} (hw : ExceptionWindow code flow w) :
    ExceptionWindow code flow' w := by
  unfold ExceptionWindow at *
  rw [h.starts, h.counts, h.emitted]
  exact hw

/-- All three kinds. -/
structure SameWindows (flow flow' : ModbusFlowState) : Prop where
  write : SameWrite flow flow'
  coordinated : SameCoordinated flow flow'
  exception : SameException flow flow'

theorem SameWindows.trans {a b c : ModbusFlowState} (h : SameWindows a b) (h' : SameWindows b c) :
    SameWindows a c :=
  ⟨h.write.trans h'.write, h.coordinated.trans h'.coordinated, h.exception.trans h'.exception⟩

theorem countedFlow_windows (flow : ModbusFlowState) (p : Pdu) :
    SameWindows flow (countedFlow flow p) := by
  constructor <;> constructor <;> rfl

theorem registerRequest_windows (s : ModbusAnalyzer) (flow : ModbusFlowState) (p : Pdu) :
    SameWindows flow (registerRequest s flow p).2 := by
  by_cases hfc : classifyFc p.fc ≠ .exception
  · cases hget : flow.pending.get? p.txnKey with
    | some old =>
      rw [registerRequest_of_some hfc hget]
      constructor <;> constructor <;> rfl
    | none =>
      by_cases hfull : maxPendingTransactions ≤ flow.pending.size
      · rw [registerRequest_of_full hfc hget hfull]
        constructor <;> constructor <;> rfl
      · rw [registerRequest_of_room hfc hget hfull]
        constructor <;> constructor <;> rfl
  · rw [registerRequest, if_neg hfc]
    constructor <;> constructor <;> rfl

theorem exceptionFlow_windows (flow : ModbusFlowState) (p : Pdu) :
    SameWindows flow (exceptionFlow flow p) := by
  rw [exceptionFlow, attributeException_fst]
  split
  · constructor <;> constructor <;> rfl
  · constructor <;> constructor <;> rfl

theorem coordinatedWrite_same (flow : ModbusFlowState) (p : Pdu) :
    SameWrite flow (coordinatedWrite flow p).1 ∧
      SameException flow (coordinatedWrite flow p).1 := by
  unfold coordinatedWrite
  split
  · split
    · constructor <;> constructor <;> rfl
    · simp only
      split <;> constructor <;> constructor <;> rfl
  · constructor <;> constructor <;> rfl

theorem writeBurst_same (threshold : UInt32) (flow : ModbusFlowState) (p : Pdu) :
    SameCoordinated flow (writeBurst threshold flow p).1 ∧
      SameException flow (writeBurst threshold flow p).1 := by
  unfold writeBurst
  split
  · constructor <;> constructor <;> rfl
  · simp only
    split <;> constructor <;> constructor <;> rfl

theorem sustainedBurst_same (threshold : UInt32) (flow : ModbusFlowState) (p : Pdu) :
    SameWindows flow (sustainedBurst threshold flow p).1 := by
  unfold sustainedBurst
  split
  · constructor <;> constructor <;> rfl
  · simp only
    split <;> split <;> constructor <;> constructor <;> rfl

/-! ## The detectors -/

theorem coordinatedWrite_of_not {flow : ModbusFlowState} {p : Pdu}
    (h : isRegisterWrite p.fc = false) : coordinatedWrite flow p = (flow, false) := by
  rw [coordinatedWrite, if_neg (by simp [h])]

theorem coordinatedWrite_window {flow : ModbusFlowState} {p : Pdu} {w : Window}
    (hw : CoordinatedWindow flow w) (hfc : isRegisterWrite p.fc = true) :
    CoordinatedWindow (coordinatedWrite flow p).1
        (Window.next t0831WindowSecs.toNat 2 (some w) p.timestamp.toNat) ∧
      ((coordinatedWrite flow p).2 = true ↔
        Window.Fires t0831WindowSecs.toNat 2 (some w) p.timestamp.toNat) := by
  rw [coordinatedWrite, if_pos hfc]
  by_cases hpast : saturatingSub p.timestamp flow.t0831WindowStartTs > t0831WindowSecs
  · rw [if_pos hpast]
    rw [past_iff, hw.anchor] at hpast
    have hfew : ¬ (2 ≤ 1 ∧ false = false) := by decide
    obtain ⟨hnext, hquiet⟩ := (Held.enter_past 32 (by decide) hpast).quiet (by decide) hfew
    exact ⟨hnext, by simpa using hquiet⟩
  · rw [if_neg hpast]
    rw [past_iff, hw.anchor] at hpast
    have hheld := hw.enter_within hpast
    simp only
    by_cases hfires : 2 ≤ bump32 flow.t0831WindowWriteCount ∧ flow.t0831BurstEmitted = false
    · rw [if_pos (by simpa using hfires)]
      obtain ⟨hnext, halarm⟩ := hheld.alarm (by decide) hfires
      exact ⟨hnext, by simpa using halarm⟩
    · rw [if_neg (by simpa using hfires)]
      obtain ⟨hnext, hquiet⟩ := hheld.quiet (by decide) hfires
      exact ⟨hnext, by simpa using hquiet⟩

theorem writeBurst_window {threshold : UInt32} (hlo : 1 ≤ threshold.toNat)
    (hhi : threshold.toNat < 2 ^ 32 - 1) {flow : ModbusFlowState} {p : Pdu} {w : Window}
    (hw : WriteWindow flow w) :
    WriteWindow (writeBurst threshold flow p).1
        (Window.next writeBurstWindowSecs.toNat (threshold.toNat + 1) (some w)
          p.timestamp.toNat) ∧
      ((writeBurst threshold flow p).2.any (evidenceStarts "Burst threshold exceeded") = true ↔
        Window.Fires writeBurstWindowSecs.toNat (threshold.toNat + 1) (some w)
          p.timestamp.toNat) := by
  unfold writeBurst
  by_cases hpast : saturatingSub p.timestamp flow.windowStartTs > writeBurstWindowSecs
  · rw [if_pos hpast]
    rw [past_iff, hw.anchor] at hpast
    have hfew : ¬ (threshold.toNat + 1 ≤ 1 ∧ false = false) := fun h => by omega
    obtain ⟨hnext, hquiet⟩ := (Held.enter_past 32 (by decide) hpast).quiet hhi hfew
    exact ⟨hnext, by simpa using hquiet⟩
  · rw [if_neg hpast]
    rw [past_iff, hw.anchor] at hpast
    have hheld := hw.enter_within hpast
    simp only
    by_cases hfires : threshold.toNat + 1 ≤ bump32 flow.windowWriteCount ∧
        flow.windowBurstEmitted = false
    · rw [if_pos (by simpa [Nat.succ_le_iff] using hfires)]
      obtain ⟨hnext, halarm⟩ := hheld.alarm hhi hfires
      refine ⟨hnext, iff_of_true ?_ halarm⟩
      rw [List.any_cons, Bool.or_eq_true]
      refine .inl (evidenceStarts_of_front rfl ?_)
      simp only [String.toList_append, List.append_assoc]
      exact List.prefix_append_of_prefix (by decide)
    · rw [if_neg (by simpa [Nat.succ_le_iff] using hfires)]
      obtain ⟨hnext, hquiet⟩ := hheld.quiet hhi hfires
      exact ⟨hnext, by simpa using hquiet⟩

/-- A finding of one of the two write detectors, by the words its evidence begins with. -/
structure IsBurst (p : Pdu) (first : String) (f : Finding) : Prop where
  eq : ∃ summary evidence, f = burstFinding p summary evidence
  summary : "Modbus write burst: ".toList <+: f.summary.toList
  starts : evidenceStarts first f = true

theorem IsBurst.of_fronts {p : Pdu} {first summary evidence : String}
    (hsummary : "Modbus write burst: ".toList <+: summary.toList)
    (hevidence : first.toList <+: evidence.toList) :
    IsBurst p first (burstFinding p summary evidence) := by
  refine ⟨⟨summary, evidence, rfl⟩, hsummary, evidenceStarts_of_front rfl ?_⟩
  simp only [String.toList_append, List.append_assoc]
  exact List.prefix_append_of_prefix hevidence

theorem IsBurst.begins {p : Pdu} {first : String} {f : Finding} {c : Char} (h : IsBurst p first f)
    (hfirst : first.toList.head? = some c) : Begins c f := by
  obtain ⟨⟨summary, evidence, rfl⟩, -, hstarts⟩ := h
  exact ⟨_, rfl, evidenceStarts_head rfl hfirst hstarts⟩

theorem IsBurst.not_coordinated {p : Pdu} {first : String} {f : Finding}
    (h : IsBurst p first f) : "T0831" ∉ f.mitreTechniques := by
  obtain ⟨summary, evidence, rfl⟩ := h.eq
  simp [burstFinding]

theorem writeBurst_found (threshold : UInt32) (flow : ModbusFlowState) (p : Pdu) :
    ∀ f ∈ (writeBurst threshold flow p).2, IsBurst p "Burst threshold exceeded" f := by
  intro f hf
  unfold writeBurst at hf
  split at hf
  · cases hf
  · simp only at hf
    split at hf
    · rw [List.mem_singleton.mp hf]
      refine .of_fronts ?_ ?_
      · simp only [String.toList_append, List.append_assoc]
        exact List.prefix_append_of_prefix (by decide)
      · simp only [String.toList_append, List.append_assoc]
        exact List.prefix_append_of_prefix (by decide)
    · cases hf

theorem sustainedBurst_found (threshold : UInt32) (flow : ModbusFlowState) (p : Pdu) :
    ∀ f ∈ (sustainedBurst threshold flow p).2, IsBurst p "Sustained write rate exceeded" f := by
  have hsame : ∀ (c : Prop) [Decidable c] (a b : ModbusFlowState) (found : List Finding),
      (if c then (a, found) else (b, found)).2 = found := by
    intro c _ a b found
    split
    · rfl
    · rfl
  intro f hf
  unfold sustainedBurst at hf
  split at hf
  · cases hf
  · simp only [hsame] at hf
    split at hf
    · rw [List.mem_singleton.mp hf]
      refine .of_fronts ?_ ?_
      · simp only [String.toList_append, List.append_assoc]
        exact List.prefix_append_of_prefix (by decide)
      · simp only [String.toList_append, List.append_assoc]
        exact List.prefix_append_of_prefix (by decide)
    · cases hf

theorem sustainedBurst_plain (threshold : UInt32) (flow : ModbusFlowState) (p : Pdu) :
    ∀ f ∈ (sustainedBurst threshold flow p).2, Plain f ∧ "T0831" ∉ f.mitreTechniques := by
  intro f hf
  have hburst := sustainedBurst_found threshold flow p f hf
  exact ⟨(hburst.begins (c := 'S') (by decide)).plain (by decide) (by decide),
    hburst.not_coordinated⟩

theorem writeBurst_exception (threshold : UInt32) (flow : ModbusFlowState) (p : Pdu) :
    (writeBurst threshold flow p).2.any (evidenceStarts "exception_fc=") = false := by
  rw [List.any_eq_false]
  intro f hf
  have hbegins := (writeBurst_found threshold flow p f hf).begins (c := 'B') (by decide)
  rw [hbegins.evidenceStarts (by decide : _ = some 'e') (by decide)]
  exact Bool.false_ne_true

theorem writeBurst_coordinated (threshold : UInt32) (flow : ModbusFlowState) (p : Pdu) :
    ∀ f ∈ (writeBurst threshold flow p).2, "T0831" ∉ f.mitreTechniques :=
  fun f hf => (writeBurst_found threshold flow p f hf).not_coordinated

section Exceptions

variable {flow flow' : ModbusFlowState} {p : Pdu} {found : List Finding} {w : Option Window}

/-- What has been entered in the maps for a code. -/
def Entered (code : UInt8) (flow : ModbusFlowState) (start : UInt32) (count : Nat) (w : Window) :
    Prop :=
  start.toNat = w.anchor ∧ count = w.count ∧
    (flow.exceptionBurstEmitted.get? code).getD false = w.fired

theorem exceptionBurst_past (hw : ExceptionWindow p.exceptionCode flow w)
    (hpast : saturatingSub p.timestamp
      ((flow.exceptionWindowStartTs.get? p.exceptionCode).getD p.timestamp) > exceptionWindowSecs) :
    ∃ v, w = some v ∧ v.anchor + exceptionWindowSecs.toNat < p.timestamp.toNat := by
  cases w with
  | none =>
    rw [hw.1, Option.getD_none, saturatingSub_self] at hpast
    exact absurd hpast (by decide)
  | some v =>
    obtain ⟨⟨start, hstart, hanchor⟩, -, -⟩ := hw
    rw [hstart, Option.getD_some, past_iff, hanchor] at hpast
    exact ⟨v, rfl, hpast⟩

/-- An exception within its window, or the first one with its code. -/
theorem exceptionBurst_within (hw : ExceptionWindow p.exceptionCode flow w)
    (hwithin : ¬ saturatingSub p.timestamp
      ((flow.exceptionWindowStartTs.get? p.exceptionCode).getD p.timestamp) >
        exceptionWindowSecs) :
    Entered p.exceptionCode flow
      ((flow.exceptionWindowStartTs.get? p.exceptionCode).getD p.timestamp)
      ((flow.exceptionWindowCounts.get? p.exceptionCode).getD 0 + 1)
      (Window.enter exceptionWindowSecs.toNat w p.timestamp.toNat) := by
  cases w with
  | none =>
    obtain ⟨hstart, hcount, hfired⟩ := hw
    rw [hstart, hcount]
    exact ⟨rfl, rfl, hfired⟩
  | some v =>
    obtain ⟨⟨start, hstart, hanchor⟩, hcount, hfired⟩ := hw
    rw [hstart, Option.getD_some, past_iff, hanchor] at hwithin
    rw [hstart, hcount, Window.enter_of_le (Nat.le_of_not_lt hwithin)]
    exact ⟨hanchor, rfl, hfired⟩

theorem exceptionBurst_window (h : exceptionBurst flow p = .ok (flow', found))
    (hw : ExceptionWindow p.exceptionCode flow w) :
    ExceptionWindow p.exceptionCode flow'
        (some (Window.next exceptionWindowSecs.toNat (exceptionRateThreshold + 1) w
          p.timestamp.toNat)) ∧
      (found.any (evidenceStarts "exception_fc=") = true ↔
        Window.Fires exceptionWindowSecs.toNat (exceptionRateThreshold + 1) w
          p.timestamp.toNat) := by
  unfold exceptionBurst at h
  simp only at h
  split at h
  · rename_i hpast
    cases h
    obtain ⟨v, rfl, hexpired⟩ := exceptionBurst_past hw hpast
    have hnew := Window.enter_of_lt (w := v) hexpired
    refine ⟨⟨⟨p.timestamp, ?_, ?_⟩, ?_, ?_⟩, ?_⟩
    · simp only [SortedMap.get?_insert_self]
    · rw [Window.next, hnew]
    · simp only [SortedMap.get?_insert_self, Window.next, hnew]
    · simp only [SortedMap.get?_insert_self, Window.next, hnew]
      rfl
    · rw [Window.Fires, hnew]
      simp [exceptionRateThreshold]
  · rename_i hwithin
    obtain ⟨hanchor, hentered, hfired⟩ := exceptionBurst_within hw hwithin
    obtain ⟨⟨counts, count⟩, hentry, h⟩ := bind_eq_ok.mp h
    obtain ⟨hcount, hmap⟩ := countEntry_eq_ok hentry
    simp only at hcount hmap h
    rw [← hcount] at hentered
    subst hmap
    split at h
    · rename_i halarm
      rw [Bool.and_eq_true, decide_eq_true_eq, Bool.not_eq_true', hentered, hfired] at halarm
      cases h
      refine ⟨⟨⟨_, ?_, hanchor⟩, ?_, ?_⟩, iff_of_true ?_ halarm⟩
      · simp only [SortedMap.get?_insert_self]
      · simp only [SortedMap.get?_insert_self, hentered, Window.next]
      · have hreached : exceptionRateThreshold + 1 ≤
            (Window.enter exceptionWindowSecs.toNat w p.timestamp.toNat).count := halarm.1
        simp [Window.next, hreached]
      · rw [List.any_cons, Bool.or_eq_true]
        refine .inl (evidenceStarts_of_front rfl ?_)
        simp only [String.toList_append, List.append_assoc]
        exact List.prefix_append_of_prefix (by decide)
    · rename_i hquiet
      rw [Bool.and_eq_true, decide_eq_true_eq, Bool.not_eq_true', hentered, hfired] at hquiet
      cases h
      refine ⟨⟨⟨_, ?_, hanchor⟩, ?_, ?_⟩, iff_of_false (by simp) hquiet⟩
      · simp only [SortedMap.get?_insert_self]
      · simp only [SortedMap.get?_insert_self, hentered, Window.next]
      · simp only [hfired, Window.next]
        cases hlatched : (Window.enter exceptionWindowSecs.toNat w p.timestamp.toNat).fired with
        | true => rfl
        | false =>
          have hfew : ¬ exceptionRateThreshold + 1 ≤
              (Window.enter exceptionWindowSecs.toNat w p.timestamp.toNat).count :=
            fun hreached => hquiet ⟨hreached, hlatched⟩
          simp [hfew]

theorem exceptionBurst_other (h : exceptionBurst flow p = .ok (flow', found)) {code : UInt8}
    (hcode : code ≠ p.exceptionCode) (hw : ExceptionWindow code flow w) :
    ExceptionWindow code flow' w := by
  have hkept : ∀ flow', (∃ start count emitted,
      flow'.exceptionWindowStartTs = flow.exceptionWindowStartTs.insert p.exceptionCode start ∧
      flow'.exceptionWindowCounts = flow.exceptionWindowCounts.insert p.exceptionCode count ∧
      (flow'.exceptionBurstEmitted = flow.exceptionBurstEmitted ∨ flow'.exceptionBurstEmitted =
        flow.exceptionBurstEmitted.insert p.exceptionCode emitted)) →
      ExceptionWindow code flow' w := by
    rintro flow' ⟨start, count, emitted, hstarts, hcounts, hemitted⟩
    have hlatch : flow'.exceptionBurstEmitted.get? code = flow.exceptionBurstEmitted.get? code := by
      rcases hemitted with hemitted | hemitted
      · rw [hemitted]
      · rw [hemitted, SortedMap.get?_insert_of_ne _ _ hcode]
    unfold ExceptionWindow at *
    rw [hstarts, hcounts, hlatch, SortedMap.get?_insert_of_ne _ _ hcode,
      SortedMap.get?_insert_of_ne _ _ hcode]
    exact hw
  unfold exceptionBurst at h
  simp only at h
  split at h
  · cases h
    exact hkept _ ⟨_, _, _, rfl, rfl, .inr rfl⟩
  · obtain ⟨⟨counts, count⟩, hentry, h⟩ := bind_eq_ok.mp h
    obtain ⟨hcount, hmap⟩ := countEntry_eq_ok hentry
    simp only at hcount hmap h
    split at h
    · cases h
      exact hkept _ ⟨_, _, _, rfl, hmap, .inr rfl⟩
    · cases h
      exact hkept _ ⟨_, _, true, rfl, hmap, .inl rfl⟩

theorem exceptionFinding_begins (p : Pdu) (excCode : UInt8) (count : Nat) :
    Begins 'e' (exceptionFinding p excCode count) := by
  refine ⟨_, rfl, ?_⟩
  repeat refine head_append ?_
  decide

theorem exceptionBurst_found (h : exceptionBurst flow p = .ok (flow', found)) :
    ∀ f ∈ found, ∃ excCode count, f = exceptionFinding p excCode count := by
  unfold exceptionBurst at h
  simp only at h
  split at h
  · cases h
    exact fun f hf => absurd hf List.not_mem_nil
  · obtain ⟨⟨counts, count⟩, hentry, h⟩ := bind_eq_ok.mp h
    simp only at h
    split at h
    · cases h
      exact fun f hf => ⟨_, _, List.mem_singleton.mp hf⟩
    · cases h
      exact fun f hf => absurd hf List.not_mem_nil

theorem exceptionBurst_same (h : exceptionBurst flow p = .ok (flow', found)) :
    SameWrite flow flow' ∧ SameCoordinated flow flow' ∧
      ∀ f ∈ found, evidenceStarts "Burst threshold exceeded" f = false ∧
        "T0831" ∉ f.mitreTechniques := by
  have hfound : ∀ f ∈ found, evidenceStarts "Burst threshold exceeded" f = false ∧
      "T0831" ∉ f.mitreTechniques := by
    intro f hf
    obtain ⟨excCode, count, rfl⟩ := exceptionBurst_found h f hf
    refine ⟨(exceptionFinding_begins p excCode count).evidenceStarts (by decide : _ = some 'B')
      (by decide), ?_⟩
    simp only [exceptionFinding]
    split <;> simp
  unfold exceptionBurst at h
  simp only at h
  split at h
  · cases h
    exact ⟨⟨rfl, rfl, rfl⟩, ⟨rfl, rfl, rfl⟩, hfound⟩
  · obtain ⟨⟨counts, count⟩, hentry, h⟩ := bind_eq_ok.mp h
    simp only at h
    split at h
    · cases h
      exact ⟨⟨rfl, rfl, rfl⟩, ⟨rfl, rfl, rfl⟩, hfound⟩
    · cases h
      exact ⟨⟨rfl, rfl, rfl⟩, ⟨rfl, rfl, rfl⟩, hfound⟩

end Exceptions

/-! ## One PDU -/

theorem diagnosticFindings_begins (p : Pdu) :
    ∀ f ∈ diagnosticFindings p, Begins 'F' f ∧ "T0831" ∉ f.mitreTechniques := by
  intro f hf
  unfold diagnosticFindings at hf
  split at hf
  · split at hf
    · simp only at hf
      split at hf
      · rw [List.mem_singleton.mp hf]
        refine ⟨⟨_, rfl, ?_⟩, by simp⟩
        exact head_append (head_append (head_append (by decide)))
      · split at hf
        · rw [List.mem_singleton.mp hf]
          exact ⟨⟨_, rfl, head_append (by decide)⟩, by simp⟩
        · cases hf
    · cases hf
  · cases hf

theorem diagnosticFindings_plain (p : Pdu) :
    ∀ f ∈ diagnosticFindings p, Plain f ∧ "T0831" ∉ f.mitreTechniques := by
  intro f hf
  obtain ⟨hbegins, hnone⟩ := diagnosticFindings_begins p f hf
  exact ⟨hbegins.plain (by decide) (by decide), hnone⟩

/-- What a PDU does to the windows. -/
inductive Effect (threshold sustained : UInt32) (flow flow' : ModbusFlowState) (p : Pdu)
    (raised : List Finding) : Prop
  | write (h : p.isWrite = true) (flow₁ flow₂ flow₃ : ModbusFlowState)
      (hsame : SameWindows flow flow₁) (hflow₂ : flow₂ = (coordinatedWrite flow₁ p).1)
      (hflow₃ : flow₃ = (writeBurst threshold flow₂ p).1)
      (hflow' : flow' = (sustainedBurst sustained flow₃ p).1)
      (hraised : raised = reconFindings p ++ writeFinding p (coordinatedWrite flow₁ p).2 ::
        ((writeBurst threshold flow₂ p).2 ++ (sustainedBurst sustained flow₃ p).2))
  | exception (h : p.isException = true) (flow₁ : ModbusFlowState) (found : List Finding)
      (hsame : SameWindows flow flow₁) (hburst : exceptionBurst flow₁ p = .ok (flow', found))
      (hraised : raised = reconFindings p ++ found)
  | other (hwrite : p.isWrite = false) (hexception : p.isException = false)
      (hsame : SameWindows flow flow')
      (hraised : ∀ f ∈ raised, Plain f ∧ "T0831" ∉ f.mitreTechniques)

/-- The thresholds are never changed. -/
def SameThresholds (s s' : ModbusAnalyzer) : Prop :=
  s'.writeBurstThreshold = s.writeBurstThreshold ∧
    s'.writeSustainedThreshold = s.writeSustainedThreshold

theorem registerRequest_thresholds (s : ModbusAnalyzer) (flow : ModbusFlowState) (p : Pdu) :
    SameThresholds s (registerRequest s flow p).1 := by
  unfold registerRequest
  split
  · simp only
    split <;> split <;> exact ⟨rfl, rfl⟩
  · exact ⟨rfl, rfl⟩

theorem processRequest_effect (s : ModbusAnalyzer) (flow : ModbusFlowState) {p : Pdu}
    (hdir : p.direction = .clientToServer) :
    SameThresholds s (processRequest s flow p).1 ∧
      Effect s.writeBurstThreshold s.writeSustainedThreshold flow (processRequest s flow p).2.1 p
        (reconFindings p ++ (processRequest s flow p).2.2) := by
  have hthresholds := registerRequest_thresholds s flow p
  have hsame := registerRequest_windows s flow p
  have hexception : p.isException = false := by simp [Pdu.isException, hdir]
  unfold processRequest
  generalize registerRequest s flow p = r at hthresholds hsame ⊢
  obtain ⟨s₁, flow₁⟩ := r
  simp only at hthresholds hsame ⊢
  have hother : ∀ found, classifyFc p.fc ≠ .write →
      (∀ f ∈ found, Plain f ∧ "T0831" ∉ f.mitreTechniques) →
      Effect s.writeBurstThreshold s.writeSustainedThreshold flow flow₁ p
        (reconFindings p ++ found) := by
    intro found hclass hfound
    refine .other (by simp [Pdu.isWrite, hclass]) hexception hsame fun f hf => ?_
    rcases List.mem_append.mp hf with hf | hf
    · exact reconFindings_plain p f hf
    · exact hfound f hf
  have hnone : ∀ f ∈ ([] : List Finding), Plain f ∧ "T0831" ∉ f.mitreTechniques :=
    fun f hf => absurd hf List.not_mem_nil
  cases hclass : classifyFc p.fc with
  | write =>
    refine ⟨hthresholds, ?_⟩
    refine .write (by simp [Pdu.isWrite, hdir, hclass])
      { flow₁ with writeCount := bump64 flow₁.writeCount } _ _ ?_ rfl rfl ?_ ?_
    · refine hsame.trans ?_
      constructor <;> constructor <;> rfl
    · simp only [processWrite, hthresholds.1, hthresholds.2]
    · simp only [processWrite, hthresholds.1, hthresholds.2]
  | diagnostic =>
    exact ⟨hthresholds, hother _ (by simp [hclass]) (diagnosticFindings_plain p)⟩
  | read => exact ⟨hthresholds, hother _ (by simp [hclass]) hnone⟩
  | exception => exact ⟨hthresholds, hother _ (by simp [hclass]) hnone⟩
  | unknown => exact ⟨hthresholds, hother _ (by simp [hclass]) hnone⟩

theorem processResponse_effect {s s' : ModbusAnalyzer} {flow flow' : ModbusFlowState} {p : Pdu}
    {found : List Finding} (threshold sustained : UInt32) (hdir : p.direction = .serverToClient)
    (h : processResponse s flow p = .ok (s', flow', found)) :
    SameThresholds s s' ∧
      Effect threshold sustained flow flow' p (reconFindings p ++ found) := by
  by_cases hfc : classifyFc p.fc = .exception
  · rw [processResponse_of_exception s flow hfc] at h
    obtain ⟨⟨flow₂, found₂⟩, hburst, hout⟩ := bind_eq_ok.mp h
    cases hout
    exact ⟨⟨rfl, rfl⟩, .exception (by simp [Pdu.isException, hdir, hfc]) _ _
      (exceptionFlow_windows flow p) hburst rfl⟩
  · rw [processResponse, if_neg hfc] at h
    cases h
    refine ⟨⟨rfl, rfl⟩, .other (by simp [Pdu.isWrite, hdir]) (by simp [Pdu.isException, hfc]) ?_ ?_⟩
    · constructor <;> constructor <;> rfl
    · rw [List.append_nil]
      exact reconFindings_plain p

theorem SameWindows.effect {threshold sustained : UInt32} {flow flow₁ flow' : ModbusFlowState}
    {p : Pdu} {raised : List Finding} (hsame : SameWindows flow flow₁)
    (h : Effect threshold sustained flow₁ flow' p raised) :
    Effect threshold sustained flow flow' p raised := by
  cases h with
  | write h flow₂ flow₃ flow₄ hsame' hflow₂ hflow₃ hflow' hraised =>
    exact .write h flow₂ flow₃ flow₄ (hsame.trans hsame') hflow₂ hflow₃ hflow' hraised
  | exception h flow₂ found hsame' hburst hraised =>
    exact .exception h flow₂ found (hsame.trans hsame') hburst hraised
  | other hwrite hexception hsame' hraised =>
    exact .other hwrite hexception (hsame.trans hsame') hraised

theorem processPdu_effect {s s' : ModbusAnalyzer} {flow flow' : ModbusFlowState} {p : Pdu}
    {raised : List Finding} (h : processPdu s flow p = .ok (s', flow', raised)) :
    SameThresholds s s' ∧
      Effect s.writeBurstThreshold s.writeSustainedThreshold flow flow' p raised := by
  unfold processPdu at h
  obtain ⟨⟨s₁, flow₁⟩, hcount, h⟩ := bind_eq_ok.mp h
  obtain ⟨⟨s₂, flow₂, found⟩, hbody, hout⟩ := bind_eq_ok.mp h
  obtain ⟨m, hcountEq⟩ := countPdu_eq s flow p
  obtain ⟨⟨counts, n⟩, hentry, hcounted⟩ := bind_eq_ok.mp (hcountEq.symm.trans hcount)
  cases hcounted
  cases hout
  have hsame := countedFlow_windows flow p
  simp only [processDirected] at hbody
  cases hdir : p.direction with
  | clientToServer =>
    rw [hdir] at hbody
    obtain ⟨hthresholds, heffect⟩ := processRequest_effect _ (countedFlow flow p) hdir
    rw [Except.ok.inj hbody] at hthresholds heffect
    exact ⟨hthresholds, hsame.effect heffect⟩
  | serverToClient =>
    rw [hdir] at hbody
    obtain ⟨hthresholds, heffect⟩ := processResponse_effect s.writeBurstThreshold
      s.writeSustainedThreshold hdir hbody
    exact ⟨hthresholds, hsame.effect heffect⟩

/-! ## The windows along a log -/

theorem any_plain {found : List Finding}
    (h : ∀ f ∈ found, Plain f ∧ "T0831" ∉ f.mitreTechniques) :
    found.any (evidenceStarts "Burst threshold exceeded") = false ∧
      found.any (evidenceStarts "exception_fc=") = false ∧
      found.any (fun f => f.mitreTechniques.contains "T0831") = false := by
  refine ⟨List.any_eq_false.mpr fun f hf => ?_, List.any_eq_false.mpr fun f hf => ?_,
    List.any_eq_false.mpr fun f hf => ?_⟩
  · rw [(h f hf).1.burst]
    exact Bool.false_ne_true
  · rw [(h f hf).1.exception]
    exact Bool.false_ne_true
  · simpa using (h f hf).2

theorem classifyFc_of_register {fc : UInt8} (h : isRegisterWrite fc = true) :
    classifyFc fc = .write := by
  simp only [isRegisterWrite, decide_eq_true_eq, List.mem_cons, List.not_mem_nil, or_false] at h
  rcases h with rfl | rfl | rfl | rfl <;> rfl

theorem isCoordinated_of_isWrite {p : Pdu} (h : p.isWrite = true) :
    p.isCoordinated = isRegisterWrite p.fc := by
  rw [Pdu.isWrite, Bool.and_eq_true] at h
  rw [Pdu.isCoordinated, h.1, Bool.true_and]

theorem isCoordinated_of_not {p : Pdu} (h : p.isWrite = false) : p.isCoordinated = false := by
  rw [← Bool.not_eq_true] at h ⊢
  intro hcoordinated
  rw [Pdu.isCoordinated, Bool.and_eq_true] at hcoordinated
  refine h ?_
  rw [Pdu.isWrite, hcoordinated.1, classifyFc_of_register hcoordinated.2]
  rfl

theorem isWrite_of_isException {p : Pdu} (h : p.isException = true) : p.isWrite = false := by
  rw [Pdu.isException, Bool.and_eq_true, decide_eq_true_eq] at h
  simp [Pdu.isWrite, h.1]

theorem isException_of_isWrite {p : Pdu} (h : p.isWrite = true) : p.isException = false := by
  rw [Pdu.isWrite, Bool.and_eq_true, decide_eq_true_eq] at h
  simp [Pdu.isException, h.1]

section Steps

variable {threshold sustained : UInt32} {flow flow' : ModbusFlowState} {p : Pdu}
  {raised : List Finding}

theorem write_step (hlo : 1 ≤ threshold.toNat) (hhi : threshold.toNat < 2 ^ 32 - 1)
    (h : Effect threshold sustained flow flow' p raised) {w : Window} (hw : WriteWindow flow w) :
    (p.isWrite = true → WriteWindow flow' (Window.next writeBurstWindowSecs.toNat
        (threshold.toNat + 1) (some w) p.timestamp.toNat) ∧
      (raised.any (evidenceStarts "Burst threshold exceeded") = true ↔
        Window.Fires writeBurstWindowSecs.toNat (threshold.toNat + 1) (some w)
          p.timestamp.toNat)) ∧
    (p.isWrite = false → WriteWindow flow' w ∧
      raised.any (evidenceStarts "Burst threshold exceeded") = false) := by
  have hrecon := (any_plain (reconFindings_plain p)).1
  cases h with
  | write hwrite flow₁ flow₂ flow₃ hsame hflow₂ hflow₃ hflow' hraised =>
    refine ⟨fun _ => ?_, fun hnot => Bool.noConfusion (hwrite.symm.trans hnot)⟩
    have hw₂ : WriteWindow flow₂ w := by
      rw [hflow₂]
      exact (coordinatedWrite_same flow₁ p).1.window (hsame.write.window hw)
    obtain ⟨hnext, hfires⟩ := writeBurst_window hlo hhi (p := p) hw₂
    rw [hflow', hflow₃]
    refine ⟨(sustainedBurst_same sustained _ p).write.window hnext, ?_⟩
    rw [← hfires, hraised, List.any_append, hrecon, List.any_cons,
      (writeFinding_plain p _).burst, List.any_append,
      (any_plain (sustainedBurst_plain sustained flow₃ p)).1]
    simp
  | exception hexception flow₁ found hsame hburst hraised =>
    have hwrite := isWrite_of_isException hexception
    refine ⟨fun hyes => Bool.noConfusion (hwrite.symm.trans hyes), fun _ => ?_⟩
    obtain ⟨hkept, -, hfound⟩ := exceptionBurst_same hburst
    refine ⟨hkept.window (hsame.write.window hw), ?_⟩
    rw [hraised, List.any_append, hrecon, Bool.false_or, List.any_eq_false]
    intro f hf
    rw [(hfound f hf).1]
    exact Bool.false_ne_true
  | other hwrite hexception hsame hraised =>
    refine ⟨fun hyes => Bool.noConfusion (hwrite.symm.trans hyes), fun _ => ?_⟩
    exact ⟨hsame.write.window hw, (any_plain hraised).1⟩

theorem coordinated_step (h : Effect threshold sustained flow flow' p raised) {w : Window}
    (hw : CoordinatedWindow flow w) :
    (p.isCoordinated = true → CoordinatedWindow flow' (Window.next t0831WindowSecs.toNat 2
        (some w) p.timestamp.toNat) ∧
      ((raised.any fun f => f.mitreTechniques.contains "T0831") = true ↔
        Window.Fires t0831WindowSecs.toNat 2 (some w) p.timestamp.toNat)) ∧
    (p.isCoordinated = false → CoordinatedWindow flow' w ∧
      (raised.any fun f => f.mitreTechniques.contains "T0831") = false) := by
  have hrecon := (any_plain (reconFindings_plain p)).2.2
  cases h with
  | write hwrite flow₁ flow₂ flow₃ hsame hflow₂ hflow₃ hflow' hraised =>
    have hw₁ := hsame.coordinated.window hw
    have hlast : ∀ {v}, CoordinatedWindow flow₂ v → CoordinatedWindow flow' v := by
      intro v hv
      rw [hflow', hflow₃]
      exact (sustainedBurst_same sustained _ p).coordinated.window
        ((writeBurst_same threshold flow₂ p).1.window hv)
    have hburst : ((writeBurst threshold flow₂ p).2.any fun f =>
        f.mitreTechniques.contains "T0831") = false :=
      List.any_eq_false.mpr fun f hf => by simpa using writeBurst_coordinated threshold flow₂ p f hf
    have hany : (raised.any fun f => f.mitreTechniques.contains "T0831") =
        (coordinatedWrite flow₁ p).2 := by
      rw [hraised, List.any_append, hrecon, List.any_cons, writeFinding_coordinated,
        List.any_append, hburst, (any_plain (sustainedBurst_plain sustained flow₃ p)).2.2]
      simp
    rw [isCoordinated_of_isWrite hwrite, hany]
    constructor
    · intro hregister
      obtain ⟨hnext, hfires⟩ := coordinatedWrite_window hw₁ hregister
      exact ⟨hlast (hflow₂ ▸ hnext), hfires⟩
    · intro hregister
      rw [coordinatedWrite_of_not hregister] at hflow₂ ⊢
      exact ⟨hlast (hflow₂ ▸ hw₁), rfl⟩
  | exception hexception flow₁ found hsame hburst hraised =>
    have hnone := isCoordinated_of_not (isWrite_of_isException hexception)
    refine ⟨fun hyes => Bool.noConfusion (hnone.symm.trans hyes), fun _ => ?_⟩
    obtain ⟨-, hkept, hfound⟩ := exceptionBurst_same hburst
    refine ⟨hkept.window (hsame.coordinated.window hw), ?_⟩
    rw [hraised, List.any_append, hrecon, Bool.false_or, List.any_eq_false]
    exact fun f hf => by simpa using (hfound f hf).2
  | other hwrite hexception hsame hraised =>
    have hnone := isCoordinated_of_not hwrite
    refine ⟨fun hyes => Bool.noConfusion (hnone.symm.trans hyes), fun _ => ?_⟩
    exact ⟨hsame.coordinated.window hw, (any_plain hraised).2.2⟩

theorem exception_step (code : UInt8) (h : Effect threshold sustained flow flow' p raised)
    {w : Option Window} (hw : ExceptionWindow code flow w) :
    ((p.isException && p.exceptionCode = code) = true →
      ExceptionWindow code flow' (some (Window.next exceptionWindowSecs.toNat
        (exceptionRateThreshold + 1) w p.timestamp.toNat)) ∧
      (raised.any (evidenceStarts "exception_fc=") = true ↔
        Window.Fires exceptionWindowSecs.toNat (exceptionRateThreshold + 1) w
          p.timestamp.toNat)) ∧
    ((p.isException && p.exceptionCode = code) = false → ExceptionWindow code flow' w ∧
      (p.exceptionCode = code → raised.any (evidenceStarts "exception_fc=") = false)) := by
  have hrecon := (any_plain (reconFindings_plain p)).2.1
  cases h with
  | write hwrite flow₁ flow₂ flow₃ hsame hflow₂ hflow₃ hflow' hraised =>
    rw [isException_of_isWrite hwrite, Bool.false_and]
    refine ⟨fun hyes => Bool.noConfusion hyes, fun _ => ⟨?_, fun _ => ?_⟩⟩
    · rw [hflow', hflow₃, hflow₂]
      exact (sustainedBurst_same sustained _ p).exception.window
        ((writeBurst_same threshold _ p).2.window
          ((coordinatedWrite_same flow₁ p).2.window (hsame.exception.window hw)))
    · rw [hraised, List.any_append, hrecon, List.any_cons, (writeFinding_plain p _).exception,
        List.any_append, writeBurst_exception,
        (any_plain (sustainedBurst_plain sustained flow₃ p)).2.1]
      rfl
  | exception hexception flow₁ found hsame hburst hraised =>
    have hw₁ := hsame.exception.window hw
    rw [hexception, Bool.true_and, decide_eq_true_eq, decide_eq_false_iff_not]
    constructor
    · rintro rfl
      obtain ⟨hnext, hfires⟩ := exceptionBurst_window hburst hw₁
      refine ⟨hnext, ?_⟩
      rw [← hfires, hraised, List.any_append, hrecon, Bool.false_or]
    · intro hcode
      exact ⟨exceptionBurst_other hburst (Ne.symm hcode) hw₁, fun heq => absurd heq hcode⟩
  | other hwrite hexception hsame hraised =>
    rw [hexception, Bool.false_and]
    refine ⟨fun hyes => Bool.noConfusion hyes, fun _ => ⟨hsame.exception.window hw, fun _ => ?_⟩⟩
    exact (any_plain hraised).2.1

end Steps

section Logs

variable {threshold sustained : UInt32}

/-- A relation between the flow and a window that every PDU keeps. -/
theorem observe_follows {W : Watch Seen} {R : ModbusFlowState → Option Window → Prop}
    (hstep : ∀ flow flow' p raised w, Effect threshold sustained flow flow' p raised → R flow w →
      (W.event ⟨p, flow, flow', raised⟩ = true → W.Explains w ⟨p, flow, flow', raised⟩ ∧
        R flow' (some (Window.next W.width W.needed w (W.time ⟨p, flow, flow', raised⟩)))) ∧
      (W.event ⟨p, flow, flow', raised⟩ = false →
        W.fires ⟨p, flow, flow', raised⟩ = false ∧ R flow' w))
    {s : ModbusAnalyzer} {flow : ModbusFlowState} {w : Option Window} {pdus : List Pdu}
    {log : List Seen} (hthreshold : s.writeBurstThreshold = threshold)
    (hsustained : s.writeSustainedThreshold = sustained) (hR : R flow w)
    (h : observe s flow pdus = .ok log) : W.Follows w log := by
  induction pdus generalizing s flow w log with
  | nil =>
    cases h
    trivial
  | cons p pdus ih =>
    obtain ⟨⟨s', flow', raised⟩, hpdu, h⟩ := bind_eq_ok.mp h
    obtain ⟨rest, hrest, h⟩ := bind_eq_ok.mp h
    cases h
    obtain ⟨⟨hburst, hsus⟩, heffect⟩ := processPdu_effect hpdu
    rw [hthreshold, hsustained] at heffect
    obtain ⟨hevent, hother⟩ := hstep flow flow' p raised w heffect hR
    rw [Watch.Follows]
    cases he : W.event ⟨p, flow, flow', raised⟩ with
    | true =>
      rw [if_pos rfl]
      obtain ⟨hexplains, hR'⟩ := hevent he
      exact ⟨hexplains, ih (hburst.trans hthreshold) (hsus.trans hsustained) hR' hrest⟩
    | false =>
      rw [if_neg Bool.false_ne_true]
      obtain ⟨hfires, hR'⟩ := hother he
      exact ⟨hfires, ih (hburst.trans hthreshold) (hsus.trans hsustained) hR' hrest⟩

theorem write_follows (hlo : 1 ≤ threshold.toNat) (hhi : threshold.toNat < 2 ^ 32 - 1)
    {s : ModbusAnalyzer} {pdus : List Pdu} {log : List Seen}
    (hthreshold : s.writeBurstThreshold = threshold) (h : observe s {} pdus = .ok log) :
    (writeWatch threshold).Follows (some ⟨0, 0, false⟩) log := by
  refine observe_follows (R := fun flow w => ∃ v, w = some v ∧ WriteWindow flow v) ?_ hthreshold rfl
    ⟨_, rfl, rfl, rfl, rfl⟩ h
  rintro flow flow' p raised - heffect ⟨w, rfl, hw⟩
  obtain ⟨hevent, hother⟩ := write_step hlo hhi heffect hw
  constructor
  · intro hwrite
    obtain ⟨hnext, hfires⟩ := hevent hwrite
    exact ⟨⟨hfires, past_iff_expired hw.anchor, hnext.anchor⟩, _, rfl, hnext⟩
  · intro hwrite
    obtain ⟨hkept, hfires⟩ := hother hwrite
    exact ⟨hfires, w, rfl, hkept⟩

theorem coordinated_follows {s : ModbusAnalyzer} {pdus : List Pdu} {log : List Seen}
    (h : observe s {} pdus = .ok log) : coordinatedWatch.Follows (some ⟨0, 0, false⟩) log := by
  refine observe_follows (R := fun flow w => ∃ v, w = some v ∧ CoordinatedWindow flow v) ?_ rfl rfl
    ⟨_, rfl, rfl, rfl, rfl⟩ h
  rintro flow flow' p raised - heffect ⟨w, rfl, hw⟩
  obtain ⟨hevent, hother⟩ := coordinated_step heffect hw
  constructor
  · intro hregister
    obtain ⟨hnext, hfires⟩ := hevent hregister
    exact ⟨⟨hfires, past_iff_expired hw.anchor, hnext.anchor⟩, _, rfl, hnext⟩
  · intro hregister
    obtain ⟨hkept, hfires⟩ := hother hregister
    exact ⟨hfires, w, rfl, hkept⟩

theorem exception_follows (code : UInt8) {s : ModbusAnalyzer} {pdus : List Pdu} {log : List Seen}
    (h : observe s {} pdus = .ok log) : (exceptionWatch code).Follows none log := by
  refine observe_follows (R := ExceptionWindow code) ?_ rfl rfl ⟨rfl, rfl, rfl⟩ h
  intro flow flow' p raised w heffect hw
  obtain ⟨hevent, hother⟩ := exception_step code heffect hw
  constructor
  · intro hexception
    obtain ⟨hnext, hfires⟩ := hevent hexception
    have hcode : p.exceptionCode = code := by
      simp only [exceptionWatch, Bool.and_eq_true, decide_eq_true_eq] at hexception
      exact hexception.2
    refine ⟨⟨?_, ?_, ?_⟩, hnext⟩
    · simp only [exceptionWatch, hcode, decide_true, Bool.true_and]
      exact hfires
    · show decide (saturatingSub p.timestamp ((flow.exceptionWindowStartTs.get? code).getD
        p.timestamp) > exceptionWindowSecs) = true ↔ _
      cases w with
      | none =>
        rw [hw.1, Option.getD_none, saturatingSub_self]
        exact ⟨fun hpast => absurd hpast (by decide), fun ⟨v, hv, _⟩ => absurd hv (by simp)⟩
      | some v =>
        obtain ⟨⟨start, hstart, hanchor⟩, -, -⟩ := hw
        rw [hstart, Option.getD_some]
        exact past_iff_expired hanchor
    · obtain ⟨⟨start, hstart, hanchor⟩, -, -⟩ := hnext
      show ((flow'.exceptionWindowStartTs.get? code).getD 0).toNat = _
      rw [hstart, Option.getD_some]
      exact hanchor
  · intro hexception
    obtain ⟨hkept, hfires⟩ := hother hexception
    refine ⟨?_, hkept⟩
    simp only [exceptionWatch]
    by_cases hcode : p.exceptionCode = code
    · rw [hfires hcode, Bool.and_false]
    · rw [decide_eq_false hcode, Bool.false_and]

end Logs

theorem observe_pdus {s : ModbusAnalyzer} {flow : ModbusFlowState} {pdus : List Pdu}
    {log : List Seen} (h : observe s flow pdus = .ok log) : log.map Seen.pdu = pdus := by
  induction pdus generalizing s flow log with
  | nil =>
    cases h
    rfl
  | cons p pdus ih =>
    obtain ⟨⟨s', flow', raised⟩, hpdu, h⟩ := bind_eq_ok.mp h
    obtain ⟨rest, hrest, h⟩ := bind_eq_ok.mp h
    cases h
    rw [List.map_cons, ih hrest]

/-- Timestamps do not decrease. -/
def InOrder (pdus : List Pdu) : Prop := pdus.Pairwise fun p q => p.timestamp ≤ q.timestamp

theorem ordered_of_inOrder {W : Watch Seen} (hW : ∀ e, W.time e = e.pdu.timestamp.toNat)
    {log : List Seen} (h : InOrder (log.map Seen.pdu)) : W.Ordered log := by
  refine (List.pairwise_map.mp h).imp fun hle => ?_
  rw [hW, hW]
  exact UInt32.le_iff_toNat_le.mp hle

/-! ## Runs -/

theorem Effect.windowsLe {threshold sustained : UInt32} {flow flow' : ModbusFlowState} {p : Pdu}
    {raised : List Finding} (h : Effect threshold sustained flow flow' p raised) {n : Nat}
    (hn : WindowsLe n flow) : WindowsLe (n + p.isException.toNat) flow' := by
  have hsame : ∀ {flow₁ : ModbusFlowState}, SameException flow flow₁ → WindowsLe n flow₁ := by
    intro flow₁ hkept
    rw [WindowsLe, hkept.counts]
    exact hn
  cases h with
  | write hwrite flow₁ flow₂ flow₃ hkept hflow₂ hflow₃ hflow' hraised =>
    rw [isException_of_isWrite hwrite]
    refine hsame (hkept.exception.trans ?_)
    rw [hflow', hflow₃, hflow₂]
    exact ((coordinatedWrite_same flow₁ p).2.trans (writeBurst_same threshold _ p).2).trans
      (sustainedBurst_same sustained _ p).exception
  | exception hexception flow₁ found hkept hburst hraised =>
    rw [hexception]
    exact (exceptionBurst_spec (s := .new 0 0) hburst).2.2 n (hsame hkept.exception)
  | other hwrite hexception hkept hraised =>
    rw [hexception]
    exact hsame hkept.exception

theorem processPdu_comes_back {n : Nat} {s : ModbusAnalyzer} {flow : ModbusFlowState} {p : Pdu}
    (hcounts : countsTotal s.fnCodeCounts + 1 < 2 ^ 64) (hwindows : WindowsLe n flow)
    (hn : n + p.isException.toNat < 2 ^ 32) : ∃ r, processPdu s flow p = .ok r := by
  obtain ⟨m, hcountEq⟩ := countPdu_eq s flow p
  obtain ⟨r, hr⟩ := countEntry_of_total hcounts p.fc
  rw [hr] at hcountEq
  have hbody : ∀ s', ∃ r', processDirected s' (countedFlow flow p) p = .ok r' := by
    intro s'
    unfold processDirected
    cases hdir : p.direction with
    | clientToServer => exact ⟨_, rfl⟩
    | serverToClient =>
      by_cases hfc : classifyFc p.fc = .exception
      · have hexception : p.isException = true := by simp [Pdu.isException, hdir, hfc]
        rw [hexception] at hn
        have hwindows' : WindowsLe n (countedFlow flow p) := hwindows
        exact processResponse_returns hwindows' hn s' p
      · simp only [processResponse, if_neg hfc]
        exact ⟨_, rfl⟩
  obtain ⟨r', hr'⟩ := hbody _
  exact ⟨_, bind_eq_ok.mpr ⟨_, hcountEq, bind_eq_ok.mpr ⟨r', hr', rfl⟩⟩⟩

theorem observe_comes_back {n : Nat} {s : ModbusAnalyzer} {flow : ModbusFlowState}
    {pdus : List Pdu} (hcounts : countsTotal s.fnCodeCounts + pdus.length < 2 ^ 64)
    (hwindows : WindowsLe n flow) (hn : n + pdus.countP Pdu.isException < 2 ^ 32) :
    ∃ log, observe s flow pdus = .ok log := by
  induction pdus generalizing n s flow with
  | nil => exact ⟨[], rfl⟩
  | cons p pdus ih =>
    rw [List.length_cons] at hcounts
    have hsplit : (p :: pdus).countP Pdu.isException =
        p.isException.toNat + pdus.countP Pdu.isException := by
      rw [List.countP_cons]
      cases p.isException with
      | true => exact Nat.add_comm _ _
      | false => exact (Nat.zero_add _).symm
    rw [hsplit] at hn
    obtain ⟨⟨s', flow', raised⟩, hpdu⟩ :=
      processPdu_comes_back (s := s) (p := p) (by omega) hwindows (by omega)
    have htotal := (processPdu_step hpdu).countsTotal
    have hcounts' : countsTotal s'.fnCodeCounts + pdus.length < 2 ^ 64 := by omega
    obtain ⟨log, hlog⟩ := ih hcounts' ((processPdu_effect hpdu).2.windowsLe hwindows) (by omega)
    exact ⟨_, bind_eq_ok.mpr ⟨(s', flow', raised), hpdu, bind_eq_ok.mpr ⟨log, hlog, rfl⟩⟩⟩

theorem observe_new_comes_back {s : ModbusAnalyzer} {pdus : List Pdu}
    (h : countsTotal s.fnCodeCounts + pdus.length < 2 ^ 64 ∧
      pdus.countP Pdu.isException < 2 ^ 32) :
    ∃ log, observe s {} pdus = .ok log := by
  have hwindows : WindowsLe 0 ({} : ModbusFlowState) := fun _ => Nat.le_refl _
  have hexceptions := h.2
  exact observe_comes_back h.1 hwindows (by omega)

theorem writeBurst_never {threshold : UInt32} (h : threshold.toNat = 2 ^ 32 - 1)
    (flow : ModbusFlowState) (p : Pdu) : (writeBurst threshold flow p).2 = [] := by
  unfold writeBurst
  split
  · rfl
  · have hfew : ¬ bump32 flow.windowWriteCount > threshold.toNat := by
      rw [bump32, saturatingInc, h]
      omega
    simp [hfew]

theorem observe_silent {s : ModbusAnalyzer} (h : s.writeBurstThreshold.toNat = 2 ^ 32 - 1)
    {flow : ModbusFlowState} {pdus : List Pdu} {log : List Seen}
    (hlog : observe s flow pdus = .ok log) :
    ∀ e ∈ log, (writeWatch s.writeBurstThreshold).fires e = false := by
  induction pdus generalizing s flow log with
  | nil =>
    cases hlog
    exact fun e he => absurd he List.not_mem_nil
  | cons p pdus ih =>
    obtain ⟨⟨s', flow', raised⟩, hpdu, hlog⟩ := bind_eq_ok.mp hlog
    obtain ⟨rest, hrest, hlog⟩ := bind_eq_ok.mp hlog
    cases hlog
    obtain ⟨⟨hburst, -⟩, heffect⟩ := processPdu_effect hpdu
    rw [List.forall_mem_cons]
    refine ⟨?_, fun e he => ih (s := s') (by rw [hburst]; exact h) hrest e he⟩
    have hrecon := (any_plain (reconFindings_plain p)).1
    show raised.any (evidenceStarts "Burst threshold exceeded") = false
    cases heffect with
    | write hwrite flow₁ flow₂ flow₃ hsame hflow₂ hflow₃ hflow' hraised =>
      rw [hraised, List.any_append, hrecon, List.any_cons, (writeFinding_plain p _).burst,
        writeBurst_never h, List.nil_append, (any_plain (sustainedBurst_plain _ flow₃ p)).1]
      rfl
    | exception hexception flow₁ found hsame hburst' hraised =>
      rw [hraised, List.any_append, hrecon, Bool.false_or, List.any_eq_false]
      intro f hf
      rw [((exceptionBurst_same hburst').2.2 f hf).1]
      exact Bool.false_ne_true
    | other hwrite hexception hsame hraised => exact (any_plain hraised).1

/-- The burst of writes, of which the largest threshold is never exceeded. -/
structure WatchesWrites (threshold : UInt32) (log : List Seen) : Prop where
  sound : (writeWatch threshold).Sound log
  complete : threshold.toNat < 2 ^ 32 - 1 → (writeWatch threshold).Complete log
  single : (writeWatch threshold).Single log

theorem observe_writes {s : ModbusAnalyzer} (hlo : 1 ≤ s.writeBurstThreshold.toNat)
    {pdus : List Pdu} {log : List Seen} (h : observe s {} pdus = .ok log)
    (horder : InOrder (log.map Seen.pdu)) : WatchesWrites s.writeBurstThreshold log := by
  by_cases hhi : s.writeBurstThreshold.toNat < 2 ^ 32 - 1
  · have hzero : Window.Idle (some ⟨0, 0, false⟩) := fun v hv => (Option.some.inj hv).symm
    have hwatches := (write_follows hlo hhi rfl h).watches hzero (Nat.succ_pos _)
      (ordered_of_inOrder (fun _ => rfl) horder)
    exact ⟨hwatches.sound, fun _ => hwatches.complete, hwatches.single⟩
  · have hmax : s.writeBurstThreshold.toNat = 2 ^ 32 - 1 := by
      have := s.writeBurstThreshold.toNat_lt
      omega
    have hsilent := observe_silent hmax h
    have hquiet : ∀ before e after, log = before ++ e :: after →
        (writeWatch s.writeBurstThreshold).fires e = false := by
      intro before e after hlog
      exact hsilent e (hlog ▸ List.mem_append_right _ List.mem_cons_self)
    refine ⟨fun before e after hlog hfires => ?_, fun hlt => absurd hlt hhi,
      fun before e mid e' after hlog hfires => ?_⟩
    · exact Bool.noConfusion ((hquiet before e after hlog).symm.trans hfires)
    · exact Bool.noConfusion ((hquiet before e _ hlog).symm.trans hfires)

/-- The three detectors of one flow, over any PDUs in the order of their timestamps. -/
theorem run_windows (s : ModbusAnalyzer) (pdus : List Pdu) (horder : InOrder pdus) :
    ReturnsIf (countsTotal s.fnCodeCounts + pdus.length < 2 ^ 64 ∧
        pdus.countP Pdu.isException < 2 ^ 32)
      (observe s {} pdus) fun log => log.map Seen.pdu = pdus ∧
        (1 ≤ s.writeBurstThreshold.toNat → WatchesWrites s.writeBurstThreshold log) ∧
          coordinatedWatch.Watches log ∧ ∀ code, (exceptionWatch code).Watches log := by
  constructor
  · exact observe_new_comes_back
  · intro log h
    have hpdus := observe_pdus h
    rw [← hpdus] at horder
    have hzero : Window.Idle (some ⟨0, 0, false⟩) := fun v hv => (Option.some.inj hv).symm
    refine ⟨hpdus, fun hlo => observe_writes hlo h horder, ?_, fun code => ?_⟩
    · exact (coordinated_follows h).watches hzero (by decide)
        (ordered_of_inOrder (fun _ => rfl) horder)
    · exact (exception_follows code h).watches (fun v hv => by cases hv) (by decide : 0 < 5 + 1)
        (ordered_of_inOrder (fun _ => rfl) horder)

/-- A write of one register at time 0. -/
def registerWrite : Pdu where
  flowKey := .new (.v4 1) 1024 (.v4 2) 502
  direction := .clientToServer
  header := ⟨0, 0, 6, 1, 0x06⟩
  fc := 0x06
  data := [0, 0, 0, 0, 0, 6, 1, 6, 0, 1, 0, 1]
  timestamp := 0

/-- Two writes within a second, and one more than the threshold allows. -/
theorem run_windows_writes :
    InOrder [registerWrite, registerWrite] ∧
      ReturnsIf (countsTotal (ModbusAnalyzer.new 1 9).fnCodeCounts + 2 < 2 ^ 64 ∧
          [registerWrite, registerWrite].countP Pdu.isException < 2 ^ 32)
        (observe (.new 1 9) {} [registerWrite, registerWrite]) fun log =>
          log.map Seen.pdu = [registerWrite, registerWrite] ∧
            (1 ≤ (1 : UInt32).toNat → WatchesWrites 1 log) ∧ coordinatedWatch.Watches log ∧
              ∀ code, (exceptionWatch code).Watches log := by
  have horder : InOrder [registerWrite, registerWrite] :=
    List.pairwise_pair.mpr (UInt32.le_refl _)
  exact ⟨horder, run_windows (.new 1 9) _ horder⟩

/-- With the largest threshold no number of writes is enough. -/
theorem burst_unreachable : ∃ pdus log, InOrder pdus ∧
    observe (.new 0xffffffff 9) {} pdus = .ok log ∧ ¬ (writeWatch 0xffffffff).Complete log := by
  have horder : InOrder (List.replicate (2 ^ 32) registerWrite) :=
    List.pairwise_replicate.mpr (.inr (UInt32.le_refl _))
  have hnone : (List.replicate (2 ^ 32) registerWrite).countP Pdu.isException = 0 := by
    rw [List.countP_eq_zero]
    intro p hp
    rw [List.eq_of_mem_replicate hp]
    decide
  have hcounts : countsTotal (ModbusAnalyzer.new 0xffffffff 9).fnCodeCounts +
      (List.replicate (2 ^ 32) registerWrite).length < 2 ^ 64 := by
    rw [List.length_replicate]
    decide
  obtain ⟨log, hlog⟩ := observe_new_comes_back ⟨hcounts, by rw [hnone]; decide⟩
  refine ⟨_, log, horder, hlog, fun hcomplete => ?_⟩
  have hpdus := observe_pdus hlog
  have hmany : (writeWatch 0xffffffff).needed ≤ log.countP fun e =>
      (writeWatch 0xffffffff).event e && decide ((writeWatch 0xffffffff).time e = 0) := by
    have hall : ∀ e ∈ log, ((writeWatch 0xffffffff).event e &&
        decide ((writeWatch 0xffffffff).time e = 0)) = true := by
      intro e he
      have hp : e.pdu = registerWrite := by
        apply List.eq_of_mem_replicate
        rw [← hpdus]
        exact List.mem_map_of_mem he
      simp only [writeWatch, hp]
      decide
    rw [List.countP_eq_length.mpr hall, ← List.length_map Seen.pdu, hpdus, List.length_replicate]
    decide
  obtain ⟨e, he, hfires, -⟩ := hcomplete 0 hmany
  have hsilent := observe_silent (s := .new 0xffffffff 9) rfl hlog e he
  exact Bool.noConfusion (hsilent.symm.trans hfires)

end Wirerust.Modbus
